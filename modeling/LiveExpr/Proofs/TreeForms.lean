import LiveExpr.Program.Basic
import LiveExpr.Proofs.JsonText
import LiveExpr.Proofs.Rounding

/-!
# Trees read back

Expressions, patterns, declared types, function names and record types read back from the
text of their trees.  A reader gives up beyond a limit of nesting, and only there: within
the limit the tree that was written is read, whatever its size, but for its floats, each of
which is read as what the reader of floats makes of its digits.  That a part nests within
the limit is asked where the part is read, so that the limits of the parts of a tree add up
to the limit of the tree.  Main statements: `readText?_toTree`, `reread?_eq_self_iff`, for
patterns and for expressions, and `parse?_ladder`, a program that is nested too deep.
-/

namespace LiveExpr

/-! ### Leaves -/

/-- An identifier is a number and nests nothing. -/
theorem Json.nesting_ofId (id : UInt64) :
  (Json.ofId id).nesting = 0
  := rfl

namespace RawJson

/-- A natural number below the bound is read back. -/
theorem natBelow?_ofInt {n bound : Nat} (h : n < bound) :
  (Json.ofInt n).toRaw.natBelow? bound = some n
  := by
  have hsign : ¬(Numeral.ofInt n).negative = true := by simp [Numeral.ofInt]
  have hinteger : (Numeral.ofInt n).isInteger = true := rfl
  have hwhole : (Numeral.ofInt n).whole = n := Int.natAbs_natCast n
  rw [Json.ofInt, Json.toRaw, natBelow?, if_pos ⟨hinteger, hsign, hwhole.symm ▸ h⟩, hwhole]

/-- An identifier is read back from the number that it is written as. -/
theorem id?_ofId (id : UInt64) :
  (Json.ofId id).toRaw.id? = some id
  := by
  rw [id?, Json.ofId, natBelow?_ofInt id.toNat_lt, Option.map_some, UInt64.ofNat_toNat]

/-- A version is read back from the number that it is written as. -/
theorem version?_ofVersion (version : UInt32) :
  (Json.ofVersion version).toRaw.version? = some version
  := by
  rw [version?, Json.ofVersion, natBelow?_ofInt version.toNat_lt, Option.map_some,
    UInt32.ofNat_toNat]

/-- Digits are read as the number that they state. -/
theorem foldlM_map_toChar (digits : List Digit) (start : Nat) :
  (digits.map Digit.toChar).foldlM
      (fun n c => (Digit.ofChar? c).map fun d => 10 * n + d.val) start
    = some (digits.foldl (fun n d => 10 * n + d.val) start)
  := by
  induction digits generalizing start with
  | nil => rfl
  | cons d digits ih =>
      rw [List.map_cons, List.foldlM_cons, Digit.ofChar?_toChar, Option.map_some,
        Option.bind_eq_bind, Option.bind_some, ih, List.foldl_cons]

/-- The text of a natural number is read as the number. -/
theorem integerDigits?_toDigits (n : Nat) :
  integerDigits? (Nat.toDigits 10 n) = some n
  := by
  obtain ⟨htext, hvalue, -⟩ := NumberLayout.digits_spec n
  have hdigit : ∀ d : Digit, d.toChar ≠ '_' := by decide
  have hfilter : (Nat.toDigits 10 n).filter (· ≠ '_') = Nat.toDigits 10 n := by
    apply List.filter_eq_self.mpr
    intro c hc
    rw [htext] at hc
    obtain ⟨d, -, rfl⟩ := List.mem_map.mp hc
    exact decide_eq_true (hdigit d)
  rw [integerDigits?, hfilter, htext, foldlM_map_toChar, ← Digit.toNat, hvalue]
  · intro rest hrest
    have hmem : '_' ∈ (NumberLayout.digits n).map Digit.toChar := by
      rw [← htext, hrest]
      exact List.mem_cons_self
    obtain ⟨d, -, hd⟩ := List.mem_map.mp hmem
    exact hdigit d hd
  · exact Nat.toDigits_ne_nil

/-- The text of a natural number begins with no sign. -/
theorem head_toDigits {n : Nat} {c : Char} {rest : List Char}
    (h : Nat.toDigits 10 n = c :: rest) :
  c ≠ '-' ∧ c ≠ '+'
  := by
  obtain ⟨htext, -⟩ := NumberLayout.digits_spec n
  have hmem : c ∈ (NumberLayout.digits n).map Digit.toChar := by
    rw [← htext, h]
    exact List.mem_cons_self
  obtain ⟨d, -, rfl⟩ := List.mem_map.mp hmem
  exact d.toChar_ne

/-- An integer is read back from its digits. -/
theorem integer?_ofDigits (n : Int) :
  (Json.ofDigits n).toRaw.integer? = some n
  := by
  have hread : (Json.ofDigits n).toRaw.integer? = readInteger? (toString n) := rfl
  rw [hread, readInteger?]
  cases n with
  | ofNat n =>
      have htext : (toString (Int.ofNat n)).toList = Nat.toDigits 10 n := Nat.toList_repr
      rw [htext]
      split
      · next hminus => exact absurd rfl (head_toDigits hminus).1
      · next hplus => exact absurd rfl (head_toDigits hplus).2
      · rw [integerDigits?_toDigits]
        rfl
  | negSucc n =>
      have hsign : toString (Int.negSucc n) = "-" ++ (n + 1).repr := rfl
      have htext : (toString (Int.negSucc n)).toList = '-' :: Nat.toDigits 10 (n + 1) := by
        rw [hsign, String.toList_append, Nat.toList_repr]
        rfl
      rw [htext]
      simp only [integerDigits?_toDigits]
      rfl

/-! ### Limits -/

/-- Whether a reading under a limit gives a result if the limit admits the nesting, and
nothing otherwise. -/
def IsWithin {α : Type} (limit nesting : Nat) (reading result : Option α) : Prop :=
  reading = if nesting ≤ limit then result else none

section

variable {α β : Type} {limit m n : Nat} {a : α} {b : Option β}

/-- What is found without nesting is found under any limit. -/
theorem isWithin_some (a : α) :
  IsWithin limit 0 (some a) (some a)
  := rfl

/-- What nests deeper than the limit is not found. -/
theorem isWithin_none {result : Option α} (h : limit < n) :
  IsWithin limit n none result
  := (if_neg (Nat.not_le.mpr h)).symm

theorem isWithin_id (id : UInt64) :
  IsWithin limit 0 (Json.ofId id).toRaw.id? (some id)
  := id?_ofId id

theorem isWithin_integer (n : Int) :
  IsWithin limit 0 (Json.ofDigits n).toRaw.integer? (some n)
  := integer?_ofDigits n

/-- What is read in one place after the other nests as deep as the deeper of both. -/
theorem IsWithin.bind_result {x result : Option α} {f g : α → Option β}
    (hx : IsWithin limit m x result) (hf : ∀ a, IsWithin limit n (f a) (g a)) :
  IsWithin limit (max m n) (x >>= f) (result >>= g)
  := by
  rw [IsWithin] at hx ⊢
  rcases Nat.lt_or_ge limit m with hm | hm
  · rw [hx, if_neg (by omega), if_neg (by omega)]
    rfl
  · have hmax : max m n ≤ limit ↔ n ≤ limit := by omega
    rw [hx, if_pos hm, if_congr hmax rfl rfl]
    cases result with
    | none => split <;> rfl
    | some a => exact hf a

/-- What is read one after another nests as deep as the deeper of the two. -/
theorem IsWithin.bind {x : Option α} {f : α → Option β} (hx : IsWithin limit m x (some a))
    (hf : IsWithin limit n (f a) b) :
  IsWithin limit (max m n) (x >>= f) b
  := by
  rw [IsWithin] at hx hf ⊢
  rcases Nat.lt_or_ge limit m with hm | hm
  · rw [hx, if_neg (by omega), if_neg (by omega)]
    rfl
  · have hmax : max m n ≤ limit ↔ n ≤ limit := by omega
    rw [hx, if_pos hm, Option.bind_eq_bind, Option.bind_some, hf, if_congr hmax rfl rfl]

/-- What is made of a result is found where the result is. -/
theorem IsWithin.map {x result : Option α} (hx : IsWithin limit n x result) (f : α → β) :
  IsWithin limit n (x.map f) (result.map f)
  := by
  rw [IsWithin] at hx ⊢
  rw [hx]
  split <;> rfl

/-- What is read under one array or object more nests one deeper. -/
theorem IsWithin.succ {x result : Option α} (h : IsWithin limit n x result) :
  IsWithin (limit + 1) (n + 1) x result
  := by
  rw [IsWithin, if_congr Nat.succ_le_succ_iff rfl rfl]
  exact h

theorem IsWithin.of_eq {x result : Option α} (h : IsWithin limit m x result)
    (hnesting : m = n) :
  IsWithin limit n x result
  := hnesting ▸ h

end

/-- Whether a reader with a limit makes a result of a tree if the limit admits the tree's
nesting, and nothing otherwise. -/
def ReadsAs {α : Type} (read : Nat → RawJson → Option α) (tree : Json)
    (result : Option α) : Prop :=
  ∀ limit, IsWithin limit tree.nesting (read limit tree.toRaw) result

/-- Whether a reader makes a list of the trees of its items. -/
def ItemsReadAs {α : Type} (read : Nat → RawJson → Option α) (trees : List Json)
    (result : Option (List α)) : Prop :=
  ∀ limit, IsWithin limit (Json.itemsNesting trees)
    ((Json.itemsToRaw trees).mapM (read limit)) result

section

variable {α : Type} {read : Nat → RawJson → Option α} {result : Option α}
  {results : Option (List α)} {tree : Json} {trees : List Json}

/-- A tree that names its kind is read under the object that names it. -/
theorem readsAs_tagged {tag : String} (hzero : read 0 (Json.tagged tag tree).toRaw = none)
    (h : ∀ limit, IsWithin limit tree.nesting (read (limit + 1) (Json.tagged tag tree).toRaw)
      result) :
  ReadsAs read (.tagged tag tree) result
  := by
  intro limit
  cases limit with
  | zero =>
      rw [hzero]
      exact isWithin_none (Nat.succ_pos _)
  | succ limit =>
      apply IsWithin.succ
      exact (h limit).of_eq (Nat.max_zero _).symm

/-- A tree that names its kind and holds its parts in an array is read under both. -/
theorem readsAs_parts {tag : String}
    (hzero : read 0 (Json.tagged tag (.array trees)).toRaw = none)
    (hone : read 1 (Json.tagged tag (.array trees)).toRaw = none)
    (h : ∀ limit, IsWithin limit (Json.itemsNesting trees)
      (read (limit + 2) (Json.tagged tag (.array trees)).toRaw) result) :
  ReadsAs read (.tagged tag (.array trees)) result
  := by
  apply readsAs_tagged hzero
  intro limit
  cases limit with
  | zero =>
      rw [hone]
      exact isWithin_none (Nat.succ_pos _)
  | succ limit => exact (h limit).succ

theorem itemsReadAs_nil :
  ItemsReadAs read [] (some [])
  := fun _ => rfl

/-- Items are read one by one, and all of them have to be read. -/
theorem itemsReadAs_cons (h : ReadsAs read tree result) (hs : ItemsReadAs read trees results) :
  ItemsReadAs read (tree :: trees)
    (result >>= fun a => results >>= fun as => some (a :: as))
  := by
  intro limit
  rw [Json.itemsToRaw, List.mapM_cons]
  apply IsWithin.bind_result (h limit)
  intro a
  apply IsWithin.of_eq (.bind_result (hs limit) fun as => isWithin_some (a :: as))
  exact Nat.max_zero _

end

end RawJson

open RawJson (IsWithin ReadsAs ItemsReadAs isWithin_some isWithin_none isWithin_id
  isWithin_integer readsAs_tagged readsAs_parts itemsReadAs_nil itemsReadAs_cons)

/-! ### Function names -/

namespace FunctionName

/-- The name of a standard function is read from its fields. -/
theorem readStdlib?_fields (moduleName function : String) (version : UInt32) :
  readStdlib? (Json.object [("function", .string function), ("module", .string moduleName),
      ("version", .ofVersion version)]).toRaw
    = some (.stdlib moduleName function version)
  := by
  have hread := RawJson.version?_ofVersion version
  exact congrArg (Option.bind · (some <| stdlib moduleName function ·)) hread

/-- The name of a package function is read from its fields. -/
theorem readPackage?_fields (owner library moduleName function : String) (version : UInt32) :
  readPackage? (Json.object [("function", .string function), ("module", .string moduleName),
      ("owner", .string owner), ("package", .string library),
      ("version", .ofVersion version)]).toRaw
    = some (.package owner library moduleName function version)
  := by
  have hread := RawJson.version?_ofVersion version
  exact congrArg (Option.bind · (some <| package owner library moduleName function ·)) hread

/-- The fields stand in the order of their names. -/
theorem toTree_stdlib (moduleName function : String) (version : UInt32) :
  (stdlib moduleName function version).toTree
    = .tagged "Stdlib" (.object [("function", .string function),
      ("module", .string moduleName), ("version", .ofVersion version)])
  := by
  simp only [toTree, Json.ofPairs, Fields.ofPairs, Fields.extend, List.foldl_cons,
    List.foldl_nil, Fields.insert, String.reduceEq, String.reduceLT, if_true, if_false]

/-- The tree of the name of a function of a package, with its keys in order. -/
theorem toTree_package (owner library moduleName function : String) (version : UInt32) :
  (package owner library moduleName function version).toTree
    = .tagged "Package" (.object [("function", .string function),
      ("module", .string moduleName), ("owner", .string owner), ("package", .string library),
      ("version", .ofVersion version)])
  := by
  simp only [toTree, Json.ofPairs, Fields.ofPairs, Fields.extend, List.foldl_cons,
    List.foldl_nil, Fields.insert, String.reduceEq, String.reduceLT, if_true, if_false]

/-- The name of a function is read back. -/
theorem readsBack (name : FunctionName) :
  RawJson.ReadsAs ofTree? name.toTree (some name)
  := by
  cases name with
  | user name => exact readsAs_tagged rfl fun limit => isWithin_some _
  | stdlib moduleName function version =>
      rw [toTree_stdlib]
      apply readsAs_tagged rfl
      intro limit
      cases limit with
      | zero => rfl
      | succ limit =>
          apply IsWithin.succ
          exact readStdlib?_fields moduleName function version
  | package owner library moduleName function version =>
      rw [toTree_package]
      apply readsAs_tagged rfl
      intro limit
      cases limit with
      | zero => rfl
      | succ limit =>
          apply IsWithin.succ
          exact readPackage?_fields owner library moduleName function version

end FunctionName

/-! ### Types -/

/-- The tree of the name of a type, with its keys in order. -/
theorem TypeName.toTree_eq (name : TypeName) :
  name.toTree = .object [("name", .string name.name), ("version", .ofVersion name.version)]
  := by
  simp only [TypeName.toTree, Json.ofPairs, Fields.ofPairs, Fields.extend, List.foldl_cons,
    List.foldl_nil, Fields.insert, String.reduceEq, String.reduceLT, if_false]

/-- The name of a type is one object. -/
theorem TypeName.nesting_toTree (name : TypeName) :
  name.toTree.nesting = 1
  := by
  rw [toTree_eq]
  rfl

/-- The name of a record type is read back. -/
theorem TypeName.ofTree?_toTree (name : TypeName) :
  ofTree? name.toTree.toRaw = some name
  := by
  have hread := RawJson.version?_ofVersion name.version
  rw [toTree_eq]
  exact congrArg (Option.bind · (some <| TypeName.mk name.name ·)) hread

namespace Ty

/-- No type is written as a null, which would be read as an absent one. -/
theorem toRaw_toTree_ne_null (type : Ty) :
  type.toTree.toRaw ≠ .null
  := by
  cases type <;> nofun

/-- A type in a type of a kind with one part is read where the part is read. -/
theorem readsBack_part {tag : String} {kind : Ty → Ty} {type : Ty}
    (hread : ∀ limit j, j ≠ RawJson.null →
      ofTree? (limit + 1) (.object [(some tag, j)]) = (ofTree? limit j).map kind)
    (h : ReadsAs ofTree? type.toTree (some type)) :
  ReadsAs ofTree? (.tagged tag type.toTree) (some (kind type))
  := by
  apply readsAs_tagged rfl
  intro limit
  have hpart : ofTree? (limit + 1) (Json.tagged tag type.toTree).toRaw = _ :=
    hread limit _ type.toRaw_toTree_ne_null
  rw [hpart]
  exact (h limit).map kind

/-- The tree of a column, with its keys in order. -/
theorem columnTree_eq (name : String) (type : Json) :
  columnTree name type = .object [("name", .string name), ("typ", type)]
  := by
  simp only [columnTree, Json.ofPairs, Fields.ofPairs, Fields.extend, List.foldl_cons,
    List.foldl_nil, Fields.insert, String.reduceEq, String.reduceLT, if_false]

/-- A column is read back if its type is. -/
theorem readsBack_column {type : Ty} (name : String) (h : ReadsAs ofTree? type.toTree (some type)) :
  ReadsAs columnOfTree? (columnTree name type.toTree) (some (name, type))
  := by
  intro limit
  rw [columnTree_eq]
  cases limit with
  | zero => rfl
  | succ limit =>
      have hread : columnOfTree? (limit + 1)
            (Json.object [("name", .string name), ("typ", type.toTree)]).toRaw
          = ofTree? limit type.toTree.toRaw >>= fun type => some (name, type) := rfl
      rw [hread]
      apply IsWithin.succ
      apply IsWithin.of_eq _ (Nat.zero_max _).symm
      exact .bind (h limit) (isWithin_some _)

/-- The columns of a record are read under the kind and the array that hold them. -/
theorem readsBack_record {fields : List (String × Ty)}
    (h : ItemsReadAs columnOfTree? (columnTrees fields) (some fields)) :
  ReadsAs ofTree? (Ty.record fields).toTree (some (.record fields))
  := by
  apply readsAs_parts rfl rfl
  intro limit
  cases limit with
  | zero =>
      cases fields with
      | nil => rfl
      | cons column rest =>
          apply isWithin_none
          simp only [columnTrees, columnTree, Json.ofPairs, Json.itemsNesting, Json.nesting]
          omega
  | succ limit => exact (h (limit + 1)).map record

mutual

/-- A type is read back. -/
theorem readsBack : ∀ type : Ty, ReadsAs ofTree? type.toTree (some type)
  | .int | .float | .bool | .null | .str | .char | .incomplete | .error | .date | .password
  | .uuid | .errorRail | .bytes => by
      intro limit
      cases limit <;> rfl
  | .list item => readsBack_part (fun _ j hj => by cases j <;> trivial) (readsBack item)
  | .dict value => readsBack_part (fun _ j hj => by cases j <;> trivial) (readsBack value)
  | .response body => readsBack_part (fun _ j hj => by cases j <;> trivial) (readsBack body)
  | .db row => readsBack_part (fun _ j hj => by cases j <;> trivial) (readsBack row)
  | .option value => readsBack_part (fun _ j hj => by cases j <;> trivial) (readsBack value)
  | .result value failure => by
      apply readsAs_parts rfl rfl
      intro limit
      apply IsWithin.bind (readsBack value limit)
      exact .bind (readsBack failure limit) (isWithin_some _)
  | .variable name => readsAs_tagged rfl fun limit => isWithin_some _
  | .function parameters returned => by
      apply readsAs_parts rfl rfl
      intro limit
      cases limit with
      | zero =>
          apply IsWithin.of_eq (m := max returned.toTree.nesting
            (Json.itemsNesting (toTrees parameters) + 1))
          · exact .bind (readsBack returned 0) (isWithin_none (Nat.succ_pos _))
          · simp only [Json.itemsNesting, Json.nesting]
            omega
      | succ limit =>
          apply IsWithin.of_eq (m := max returned.toTree.nesting
            (max (Json.itemsNesting (toTrees parameters) + 1) 0))
          · apply IsWithin.bind (readsBack returned (limit + 1))
            exact .bind (itemsReadBack parameters limit).succ (isWithin_some _)
          · simp only [Json.itemsNesting, Json.nesting]
            omega
  | .record fields => readsBack_record (columnsReadBack fields)
  | .userType name => by
      apply readsAs_tagged rfl
      intro limit
      cases limit with
      | zero => rfl
      | succ limit =>
          have hname : IsWithin limit 0 (TypeName.ofTree? name.toTree.toRaw) (some name) :=
            name.ofTree?_toTree
          rw [name.nesting_toTree]
          exact hname.succ.map userType

/-- Types in a list are read back. -/
theorem itemsReadBack : ∀ types : List Ty, ItemsReadAs ofTree? (toTrees types) (some types)
  | [] => itemsReadAs_nil
  | type :: rest => itemsReadAs_cons (readsBack type) (itemsReadBack rest)

/-- Columns are read back. -/
theorem columnsReadBack : ∀ fields : List (String × Ty),
    ItemsReadAs columnOfTree? (columnTrees fields) (some fields)
  | [] => itemsReadAs_nil
  | (name, type) :: rest =>
      itemsReadAs_cons (readsBack_column name (readsBack type)) (columnsReadBack rest)

end

end Ty

/-- A declared type is read back. -/
theorem UserType.readsBack (type : UserType) :
  ReadsAs ofTree? type.toTree (some type)
  := by
  have htree : type.toTree
      = .object [("fields", .array (Ty.columnTrees type.fields)), ("name", type.name.toTree)] := by
    simp only [toTree, Json.ofPairs, Fields.ofPairs, Fields.extend, List.foldl_cons,
      List.foldl_nil, Fields.insert, String.reduceEq, String.reduceLT, if_true, if_false]
  have hnesting := type.name.nesting_toTree
  have hname {limit : Nat} : IsWithin (limit + 1) 1 (TypeName.ofTree? type.name.toTree.toRaw)
      (some type.name) := IsWithin.succ type.name.ofTree?_toTree
  intro limit
  rw [htree]
  obtain _ | _ | limit := limit
  · rfl
  · apply isWithin_none
    simp only [Json.nesting, Json.membersNesting]
    omega
  · apply IsWithin.succ
    apply IsWithin.of_eq (m := max type.name.toTree.nesting
      (max (Json.itemsNesting (Ty.columnTrees type.fields) + 1) 0))
    · rw [hnesting]
      apply IsWithin.bind hname
      exact .bind (Ty.columnsReadBack type.fields limit).succ (isWithin_some _)
    · simp only [Json.membersNesting, Json.nesting]
      omega

/-! ### Floats -/

namespace Binary64

/-- What a float is read as from its tree. -/
def reread? (x : Binary64) : Option Binary64 :=
  (Json.ofFloat x).toRaw.float?

/-- A float is a number and nests nothing. -/
theorem nesting_ofFloat (x : Binary64) :
  (Json.ofFloat x).nesting = 0
  := by
  rw [Json.ofFloat]
  split <;> rfl

/-- A float is read as what the reader of floats makes of its digits. -/
theorem isWithin_float {limit : Nat} (x : Binary64) :
  IsWithin limit (Json.ofFloat x).nesting (Json.ofFloat x).toRaw.float? x.reread?
  := by
  rw [nesting_ofFloat]
  rfl

end Binary64

/-! ### Patterns -/

namespace Pattern

mutual

/-- What a pattern is read as from its tree: the pattern with its floats reread. -/
def reread? : Pattern → Option Pattern
  | .float id value => value.reread? >>= fun value => some (.float id value)
  | .constructor id name args => rereadAll? args >>= fun args => some (.constructor id name args)
  | pattern => some pattern

/-- What a list of patterns is read as. -/
def rereadAll? : List Pattern → Option (List Pattern)
  | [] => some []
  | pattern :: rest =>
    reread? pattern >>= fun pattern => rereadAll? rest >>= fun rest => some (pattern :: rest)

end

mutual

/-- A pattern is read from its tree with its floats reread. -/
theorem readsAs : ∀ pattern : Pattern, ReadsAs ofTree? pattern.toTree pattern.reread?
  | .null id => readsAs_tagged rfl fun limit => (isWithin_id id).map null
  | .blank id => readsAs_tagged rfl fun limit => (isWithin_id id).map blank
  | .variable id name | .bool id name | .character id name | .string id name => by
      apply readsAs_parts rfl rfl
      intro limit
      apply IsWithin.bind (isWithin_id id)
      exact .bind (isWithin_some name) (isWithin_some _)
  | .integer id value => by
      apply readsAs_parts rfl rfl
      intro limit
      apply IsWithin.bind (isWithin_id id)
      exact .bind (isWithin_integer value) (isWithin_some _)
  | .float id value => by
      apply readsAs_parts rfl rfl
      intro limit
      apply IsWithin.bind (isWithin_id id)
      exact .bind_result value.isWithin_float fun _ => isWithin_some _
  | .constructor id name args => by
      apply readsAs_parts rfl rfl
      intro limit
      cases limit with
      | zero =>
          apply isWithin_none
          simp only [Json.itemsNesting, Json.nesting]
          omega
      | succ limit =>
          apply IsWithin.bind (isWithin_id id)
          apply IsWithin.bind (isWithin_some name)
          exact .bind_result (itemsReadAs args limit).succ fun _ => isWithin_some _

/-- Patterns in a list are read as what they are reread as. -/
theorem itemsReadAs : ∀ patterns : List Pattern,
    ItemsReadAs ofTree? (toTrees patterns) (rereadAll? patterns)
  | [] => itemsReadAs_nil
  | pattern :: rest => itemsReadAs_cons (readsAs pattern) (itemsReadAs rest)

end

mutual

/-- Whether all floats of a pattern are read as themselves. -/
def floatsReadBack : Pattern → Bool
  | .float _ value => value.reread? == some value
  | .constructor _ _ args => allFloatsReadBack args
  | _ => true

/-- Whether all floats of a list of patterns are read as themselves. -/
def allFloatsReadBack : List Pattern → Bool
  | [] => true
  | pattern :: rest => floatsReadBack pattern && allFloatsReadBack rest

end

mutual

/-- A pattern is read as itself if and only if its floats are. -/
theorem reread?_eq_self_iff : ∀ pattern : Pattern,
    pattern.reread? = some pattern ↔ pattern.floatsReadBack = true
  | .float _ _ => by simp [reread?, floatsReadBack, Option.bind_eq_some_iff]
  | .constructor _ _ args => by
      simp [reread?, floatsReadBack, Option.bind_eq_some_iff, rereadAll?_eq_self_iff args]
  | .null _ | .blank _ | .variable _ _ | .bool _ _ | .character _ _ | .string _ _
  | .integer _ _ => iff_of_true rfl rfl

/-- Patterns in a list are read as themselves if and only if all of their floats are. -/
theorem rereadAll?_eq_self_iff : ∀ patterns : List Pattern,
    rereadAll? patterns = some patterns ↔ allFloatsReadBack patterns = true
  | [] => iff_of_true rfl rfl
  | pattern :: rest => by
      simp [rereadAll?, allFloatsReadBack, Option.bind_eq_some_iff, reread?_eq_self_iff pattern,
        rereadAll?_eq_self_iff rest]

end

end Pattern

/-! ### Expressions -/

/-- Whether an application stands in a pipeline is read back. -/
theorem PipePosition.readsBack (position : PipePosition) :
  ReadsAs ofTree? position.toTree (some position)
  := by
  cases position with
  | notInPipe => exact fun limit => by cases limit <;> rfl
  | inPipe id => exact readsAs_tagged rfl fun limit => (isWithin_id id).map inPipe

/-- Whether a call uses the error rail is read back. -/
theorem RailUse.readsBack (railUse : RailUse) :
  ReadsAs ofTree? railUse.toTree (some railUse)
  := by
  intro limit
  cases railUse <;> cases limit <;> rfl

namespace Expr

mutual

/-- What an expression is read as from its tree: the expression with its floats reread. -/
def reread? : Expr → Option Expr
  | .float id value => value.reread? >>= fun value => some (.float id value)
  | .letIn id name value body =>
    reread? value >>= fun value => reread? body >>= fun body => some (.letIn id name value body)
  | .conditional id condition thenCase elseCase =>
    reread? condition >>= fun condition => reread? thenCase >>= fun thenCase =>
      reread? elseCase >>= fun elseCase => some (.conditional id condition thenCase elseCase)
  | .lambda id parameters body =>
    reread? body >>= fun body => some (.lambda id parameters body)
  | .fieldAccess id object field =>
    reread? object >>= fun object => some (.fieldAccess id object field)
  | .apply id callee args position railUse =>
    reread? callee >>= fun callee => rereadAll? args >>= fun args =>
      some (.apply id callee args position railUse)
  | .list id items => rereadAll? items >>= fun items => some (.list id items)
  | .record id fields => rereadFields? fields >>= fun fields => some (.record id fields)
  | .constructor id name args => rereadAll? args >>= fun args => some (.constructor id name args)
  | .matchCases id scrutinee cases =>
    reread? scrutinee >>= fun scrutinee => rereadCases? cases >>= fun cases =>
      some (.matchCases id scrutinee cases)
  | .featureFlag id condition oldCode newCode =>
    reread? condition >>= fun condition => reread? oldCode >>= fun oldCode =>
      reread? newCode >>= fun newCode => some (.featureFlag id condition oldCode newCode)
  | e => some e

/-- What a list of expressions is read as. -/
def rereadAll? : List Expr → Option (List Expr)
  | [] => some []
  | e :: rest => reread? e >>= fun e => rereadAll? rest >>= fun rest => some (e :: rest)

/-- What fields are read as. -/
def rereadFields? : List (String × Expr) → Option (List (String × Expr))
  | [] => some []
  | (name, value) :: rest =>
    (reread? value >>= fun value => some (name, value)) >>= fun field =>
      rereadFields? rest >>= fun rest => some (field :: rest)

/-- What cases are read as. -/
def rereadCases? : List (Pattern × Expr) → Option (List (Pattern × Expr))
  | [] => some []
  | (pattern, body) :: rest =>
    (pattern.reread? >>= fun pattern => reread? body >>= fun body => some (pattern, body))
      >>= fun arm => rereadCases? rest >>= fun rest => some (arm :: rest)

end

/-! Parts that stand in arrays of their own. -/

/-- The parameter that a tree states under a limit. -/
def parameterWithin? : Nat → RawJson → Option (NodeId × String)
  | 0, _ => none
  | _ + 1, j => parameterOfTree? j

/-- The field that a tree states under a limit. -/
def fieldWithin? : Nat → RawJson → Option (String × Expr)
  | 0, _ => none
  | limit + 1, j => readField? (ofTree? limit) j

/-- The case that a tree states under a limit. -/
def caseWithin? : Nat → RawJson → Option (Pattern × Expr)
  | 0, _ => none
  | limit + 1, j => readCase? (Pattern.ofTree? limit) (ofTree? limit) j

/-- A parameter is read from its tree. -/
theorem readsAs_parameter (parameter : NodeId × String) :
  ReadsAs parameterWithin? (parameterTree parameter) (some parameter)
  := by
  intro limit
  cases limit with
  | zero => rfl
  | succ limit =>
      apply IsWithin.succ
      apply IsWithin.bind (isWithin_id parameter.1)
      exact .bind (isWithin_some parameter.2) (isWithin_some _)

/-- The parameters of a lambda are read back. -/
theorem parametersReadAs (parameters : List (NodeId × String)) :
  ItemsReadAs parameterWithin? (parameters.map parameterTree) (some parameters)
  := by
  induction parameters with
  | nil => exact itemsReadAs_nil
  | cons parameter rest ih => exact itemsReadAs_cons (readsAs_parameter parameter) ih

/-- A field is read under the array that holds it. -/
theorem readsAs_field {value : Expr} (name : String)
    (h : ReadsAs ofTree? value.toTree value.reread?) :
  ReadsAs fieldWithin? (.array [.string name, value.toTree])
    (value.reread? >>= fun value => some (name, value))
  := by
  intro limit
  cases limit with
  | zero => rfl
  | succ limit =>
      apply IsWithin.succ
      apply IsWithin.bind (isWithin_some name)
      exact .bind_result (h limit) fun _ => isWithin_some _

/-- A case is read under the array that holds it. -/
theorem readsAs_case {pattern : Pattern} {body : Expr}
    (h : ReadsAs ofTree? body.toTree body.reread?) :
  ReadsAs caseWithin? (.array [pattern.toTree, body.toTree])
    (pattern.reread? >>= fun pattern => body.reread? >>= fun body => some (pattern, body))
  := by
  intro limit
  cases limit with
  | zero => rfl
  | succ limit =>
      apply IsWithin.succ
      apply IsWithin.bind_result (pattern.readsAs limit)
      exact fun _ => .bind_result (h limit) fun _ => isWithin_some _

/-! Kinds that are read in another order than written, or that hold arrays of arrays. -/

/-- A lambda is read as its body is. -/
theorem readsAs_lambda {body : Expr} (id : NodeId) (parameters : List (NodeId × String))
    (h : ReadsAs ofTree? body.toTree body.reread?) :
  ReadsAs ofTree? (lambda id parameters body).toTree (lambda id parameters body).reread?
  := by
  apply readsAs_parts rfl rfl
  intro limit
  have hparameters := parametersReadAs parameters
  apply IsWithin.of_eq (m := max body.toTree.nesting
    (max (Json.itemsNesting (parameters.map parameterTree) + 1) 0))
  · apply IsWithin.bind_result (h limit)
    intro body
    match limit with
    | 0 => exact isWithin_none (by omega)
    | 1 =>
        cases parameters with
        | nil =>
            have hnil : IsWithin 1 1 (some ([] : List (NodeId × String))) (some []) := rfl
            exact .bind hnil (.bind (isWithin_id id) (isWithin_some _))
        | cons parameter rest =>
            apply isWithin_none
            simp only [List.map_cons, parameterTree, Json.itemsNesting, Json.nesting]
            omega
    | limit + 2 =>
        apply IsWithin.bind (hparameters (limit + 1)).succ
        exact .bind (isWithin_id id) (isWithin_some _)
  · simp only [Json.itemsNesting, Json.nesting, Json.nesting_ofId]
    omega

/-- An application is read as its callee and its arguments are. -/
theorem readsAs_apply {callee : Expr} {args : List Expr} (id : NodeId)
    (position : PipePosition) (railUse : RailUse)
    (h : ReadsAs ofTree? callee.toTree callee.reread?)
    (hargs : ItemsReadAs ofTree? (toTrees args) (rereadAll? args)) :
  ReadsAs ofTree? (apply id callee args position railUse).toTree
    (apply id callee args position railUse).reread?
  := by
  apply readsAs_parts rfl rfl
  intro limit
  apply IsWithin.of_eq (m := max callee.toTree.nesting (max position.toTree.nesting
    (max railUse.toTree.nesting (max 0 (max (Json.itemsNesting (toTrees args) + 1) 0)))))
  · cases limit with
    | zero =>
        apply IsWithin.bind_result (h 0)
        intro callee
        apply IsWithin.bind (position.readsBack 0)
        exact .bind (railUse.readsBack 0) (isWithin_none (by omega))
    | succ limit =>
        apply IsWithin.bind_result (h (limit + 1))
        intro callee
        apply IsWithin.bind (position.readsBack (limit + 1))
        apply IsWithin.bind (railUse.readsBack (limit + 1))
        apply IsWithin.bind (isWithin_id id)
        exact .bind_result (hargs limit).succ fun _ => isWithin_some _
  · simp only [Json.itemsNesting, Json.nesting, Json.nesting_ofId]
    omega

/-- A record is read as its fields are. -/
theorem readsAs_record {fields : List (String × Expr)} (id : NodeId)
    (h : ItemsReadAs fieldWithin? (fieldTrees fields) (rereadFields? fields)) :
  ReadsAs ofTree? (record id fields).toTree (record id fields).reread?
  := by
  apply readsAs_parts rfl rfl
  intro limit
  match limit with
  | 0 => rfl
  | 1 =>
      cases fields with
      | nil => exact (isWithin_id id).succ.map (record · [])
      | cons field rest =>
          apply isWithin_none
          simp only [fieldTrees, Json.itemsNesting, Json.nesting]
          omega
  | limit + 2 =>
      apply IsWithin.bind (isWithin_id id)
      exact .bind_result (h (limit + 1)).succ fun _ => isWithin_some _

/-- A match is read as its scrutinee and its cases are. -/
theorem readsAs_matchCases {scrutinee : Expr} {arms : List (Pattern × Expr)} (id : NodeId)
    (h : ReadsAs ofTree? scrutinee.toTree scrutinee.reread?)
    (harms : ItemsReadAs caseWithin? (caseTrees arms) (rereadCases? arms)) :
  ReadsAs ofTree? (matchCases id scrutinee arms).toTree (matchCases id scrutinee arms).reread?
  := by
  apply readsAs_parts rfl rfl
  intro limit
  apply IsWithin.of_eq (m := max scrutinee.toTree.nesting
    (max 0 (max (Json.itemsNesting (caseTrees arms) + 1) 0)))
  · match limit with
    | 0 => exact .bind_result (h 0) fun _ => isWithin_none (by omega)
    | 1 =>
        apply IsWithin.bind_result (h 1)
        intro scrutinee
        cases arms with
        | nil => exact (isWithin_id id).succ.map (matchCases · scrutinee [])
        | cons arm rest =>
            apply isWithin_none
            simp only [caseTrees, Json.itemsNesting, Json.nesting]
            omega
    | limit + 2 =>
        apply IsWithin.bind_result (h (limit + 2))
        intro scrutinee
        apply IsWithin.bind (isWithin_id id)
        exact .bind_result (harms (limit + 1)).succ fun _ => isWithin_some _
  · simp only [Json.itemsNesting, Json.nesting, Json.nesting_ofId]
    omega

mutual

/-- An expression is read from its tree with its floats reread. -/
theorem readsAs : ∀ e : Expr, ReadsAs ofTree? e.toTree e.reread?
  | .null id => readsAs_tagged rfl fun limit => (isWithin_id id).map null
  | .blank id => readsAs_tagged rfl fun limit => (isWithin_id id).map blank
  | .integer id value => by
      apply readsAs_parts rfl rfl
      intro limit
      apply IsWithin.bind (isWithin_id id)
      exact .bind (isWithin_integer value) (isWithin_some _)
  | .float id value => by
      apply readsAs_parts rfl rfl
      intro limit
      apply IsWithin.bind (isWithin_id id)
      exact .bind_result value.isWithin_float fun _ => isWithin_some _
  | .string id name | .bool id name | .character id name | .variable id name => by
      apply readsAs_parts rfl rfl
      intro limit
      apply IsWithin.bind (isWithin_id id)
      exact .bind (isWithin_some name) (isWithin_some _)
  | .letIn id name value body => by
      apply readsAs_parts rfl rfl
      intro limit
      apply IsWithin.bind (isWithin_id id)
      apply IsWithin.bind (isWithin_some name)
      apply IsWithin.bind_result (readsAs value limit)
      intro value
      exact .bind_result (readsAs body limit) fun _ => isWithin_some _
  | .conditional id condition thenCase elseCase => by
      apply readsAs_parts rfl rfl
      intro limit
      apply IsWithin.bind (isWithin_id id)
      apply IsWithin.bind_result (readsAs condition limit)
      intro condition
      apply IsWithin.bind_result (readsAs thenCase limit)
      intro thenCase
      exact .bind_result (readsAs elseCase limit) fun _ => isWithin_some _
  | .featureFlag id condition oldCode newCode => by
      apply readsAs_parts rfl rfl
      intro limit
      apply IsWithin.bind (isWithin_id id)
      apply IsWithin.bind_result (readsAs condition limit)
      intro condition
      apply IsWithin.bind_result (readsAs oldCode limit)
      intro oldCode
      exact .bind_result (readsAs newCode limit) fun _ => isWithin_some _
  | .lambda id parameters body => readsAs_lambda id parameters (readsAs body)
  | .fieldAccess id object field => by
      apply readsAs_parts rfl rfl
      intro limit
      apply IsWithin.bind (isWithin_id id)
      apply IsWithin.bind_result (readsAs object limit)
      exact fun object => .bind (isWithin_some field) (isWithin_some _)
  | .apply id callee args position railUse =>
      readsAs_apply id position railUse (readsAs callee) (itemsReadAs args)
  | .functionValue id name => by
      apply readsAs_parts rfl rfl
      intro limit
      apply IsWithin.bind (isWithin_id id)
      exact .bind (name.readsBack limit) (isWithin_some _)
  | .list id items => by
      apply readsAs_parts rfl rfl
      intro limit
      cases limit with
      | zero => rfl
      | succ limit =>
          apply IsWithin.bind (isWithin_id id)
          exact .bind_result (itemsReadAs items limit).succ fun _ => isWithin_some _
  | .record id fields => readsAs_record id (fieldsReadAs fields)
  | .constructor id name args => by
      apply readsAs_parts rfl rfl
      intro limit
      cases limit with
      | zero => rfl
      | succ limit =>
          apply IsWithin.bind (isWithin_id id)
          apply IsWithin.bind (isWithin_some name)
          exact .bind_result (itemsReadAs args limit).succ fun _ => isWithin_some _
  | .matchCases id scrutinee cases =>
      readsAs_matchCases id (readsAs scrutinee) (casesReadAs cases)

/-- Expressions in a list are read as what they are reread as. -/
theorem itemsReadAs : ∀ items : List Expr,
    ItemsReadAs ofTree? (toTrees items) (rereadAll? items)
  | [] => itemsReadAs_nil
  | e :: rest => itemsReadAs_cons (readsAs e) (itemsReadAs rest)

/-- Fields are read as what they are reread as. -/
theorem fieldsReadAs : ∀ fields : List (String × Expr),
    ItemsReadAs fieldWithin? (fieldTrees fields) (rereadFields? fields)
  | [] => itemsReadAs_nil
  | (name, value) :: rest =>
      itemsReadAs_cons (readsAs_field name (readsAs value)) (fieldsReadAs rest)

/-- Cases are read as what they are reread as. -/
theorem casesReadAs : ∀ cases : List (Pattern × Expr),
    ItemsReadAs caseWithin? (caseTrees cases) (rereadCases? cases)
  | [] => itemsReadAs_nil
  | (_, body) :: rest => itemsReadAs_cons (readsAs_case (readsAs body)) (casesReadAs rest)

end

mutual

/-- Whether all floats of an expression are read as themselves. -/
def floatsReadBack : Expr → Bool
  | .float _ value => value.reread? == some value
  | .letIn _ _ value body => floatsReadBack value && floatsReadBack body
  | .conditional _ condition thenCase elseCase =>
    floatsReadBack condition && floatsReadBack thenCase && floatsReadBack elseCase
  | .lambda _ _ body => floatsReadBack body
  | .fieldAccess _ object _ => floatsReadBack object
  | .apply _ callee args _ _ => floatsReadBack callee && allFloatsReadBack args
  | .list _ items => allFloatsReadBack items
  | .record _ fields => fieldsFloatsReadBack fields
  | .constructor _ _ args => allFloatsReadBack args
  | .matchCases _ scrutinee cases => floatsReadBack scrutinee && casesFloatsReadBack cases
  | .featureFlag _ condition oldCode newCode =>
    floatsReadBack condition && floatsReadBack oldCode && floatsReadBack newCode
  | _ => true

/-- Whether all floats of a list of expressions are read as themselves. -/
def allFloatsReadBack : List Expr → Bool
  | [] => true
  | e :: rest => floatsReadBack e && allFloatsReadBack rest

/-- Whether all floats of fields are read as themselves. -/
def fieldsFloatsReadBack : List (String × Expr) → Bool
  | [] => true
  | (_, value) :: rest => floatsReadBack value && fieldsFloatsReadBack rest

/-- Whether all floats of cases are read as themselves. -/
def casesFloatsReadBack : List (Pattern × Expr) → Bool
  | [] => true
  | (pattern, body) :: rest =>
    pattern.floatsReadBack && floatsReadBack body && casesFloatsReadBack rest

end

mutual

/-- An expression is read as itself if and only if its floats are. -/
theorem reread?_eq_self_iff : ∀ e : Expr, e.reread? = some e ↔ e.floatsReadBack = true
  | .float _ _ => by simp [reread?, floatsReadBack, Option.bind_eq_some_iff]
  | .letIn _ _ value body => by
      simp [reread?, floatsReadBack, Option.bind_eq_some_iff, reread?_eq_self_iff value,
        reread?_eq_self_iff body]
  | .conditional _ condition thenCase elseCase => by
      simp [reread?, floatsReadBack, Option.bind_eq_some_iff, reread?_eq_self_iff condition,
        reread?_eq_self_iff thenCase, reread?_eq_self_iff elseCase, and_assoc]
  | .featureFlag _ condition oldCode newCode => by
      simp [reread?, floatsReadBack, Option.bind_eq_some_iff, reread?_eq_self_iff condition,
        reread?_eq_self_iff oldCode, reread?_eq_self_iff newCode, and_assoc]
  | .lambda _ _ body => by
      simp [reread?, floatsReadBack, Option.bind_eq_some_iff, reread?_eq_self_iff body]
  | .fieldAccess _ object _ => by
      simp [reread?, floatsReadBack, Option.bind_eq_some_iff, reread?_eq_self_iff object]
  | .apply _ callee args _ _ => by
      simp [reread?, floatsReadBack, Option.bind_eq_some_iff, reread?_eq_self_iff callee,
        rereadAll?_eq_self_iff args]
  | .list _ items => by
      simp [reread?, floatsReadBack, Option.bind_eq_some_iff, rereadAll?_eq_self_iff items]
  | .record _ fields => by
      simp [reread?, floatsReadBack, Option.bind_eq_some_iff, rereadFields?_eq_self_iff fields]
  | .constructor _ _ args => by
      simp [reread?, floatsReadBack, Option.bind_eq_some_iff, rereadAll?_eq_self_iff args]
  | .matchCases _ scrutinee cases => by
      simp [reread?, floatsReadBack, Option.bind_eq_some_iff, reread?_eq_self_iff scrutinee,
        rereadCases?_eq_self_iff cases]
  | .null _ | .blank _ | .integer _ _ | .string _ _ | .bool _ _ | .character _ _
  | .variable _ _ | .functionValue _ _ => iff_of_true rfl rfl

/-- Expressions in a list are read as themselves if and only if all of their floats are. -/
theorem rereadAll?_eq_self_iff : ∀ items : List Expr,
    rereadAll? items = some items ↔ allFloatsReadBack items = true
  | [] => iff_of_true rfl rfl
  | e :: rest => by
      simp [rereadAll?, allFloatsReadBack, Option.bind_eq_some_iff, reread?_eq_self_iff e,
        rereadAll?_eq_self_iff rest]

/-- Fields are read as themselves if and only if all of their floats are. -/
theorem rereadFields?_eq_self_iff : ∀ fields : List (String × Expr),
    rereadFields? fields = some fields ↔ fieldsFloatsReadBack fields = true
  | [] => iff_of_true rfl rfl
  | (_, value) :: rest => by
      simp [rereadFields?, fieldsFloatsReadBack, Option.bind_eq_some_iff,
        reread?_eq_self_iff value, rereadFields?_eq_self_iff rest]

/-- Cases are read as themselves if and only if all of their floats are, those of the
patterns too. -/
theorem rereadCases?_eq_self_iff : ∀ cases : List (Pattern × Expr),
    rereadCases? cases = some cases ↔ casesFloatsReadBack cases = true
  | [] => iff_of_true rfl rfl
  | (pattern, body) :: rest => by
      simp [rereadCases?, casesFloatsReadBack, Option.bind_eq_some_iff,
        pattern.reread?_eq_self_iff, reread?_eq_self_iff body, rereadCases?_eq_self_iff rest,
        and_assoc]

end

end Expr

/-! ### Texts -/

/-- What a reader of trees makes of a text under a limit. -/
def RawJson.readText? {α : Type} (read : Nat → RawJson → Option α) (limit : Nat)
    (text : String) : Option α :=
  (parse? text).bind (read limit)

/-- What is made of a tree is made of the tree's text. -/
theorem RawJson.ReadsAs.readText?_compact {α : Type} {read : Nat → RawJson → Option α}
    {tree : Json} {result : Option α} (h : ReadsAs read tree result) (limit : Nat) :
  readText? read limit tree.compact = if tree.nesting ≤ limit then result else none
  := by
  rw [readText?, parse?_compact, Option.bind_some]
  exact h limit

/-- A value is read back from the text of its tree if and only if the limit admits the tree
and the tree is read as the value. -/
theorem RawJson.ReadsAs.readText?_eq_some_iff {α : Type} {read : Nat → RawJson → Option α}
    {tree : Json} {result : Option α} {a : α} (h : ReadsAs read tree result) (limit : Nat) :
  readText? read limit tree.compact = some a ↔ tree.nesting ≤ limit ∧ result = some a
  := by
  rw [h.readText?_compact, Option.ite_none_right_eq_some]

open RawJson (readText?)

/-- Expressions, patterns, declared types, function names and record types read back from
the text of their trees under any limit that the trees keep, if their floats are read as
themselves, and under no other, nor with other floats: there is no tree that some limit
does not admit. -/
theorem readText?_toTree :
  (∀ (e : Expr) (limit : Nat), readText? Expr.ofTree? limit e.toTree.compact = some e
      ↔ e.toTree.nesting ≤ limit ∧ e.floatsReadBack = true)
    ∧ (∀ (pattern : Pattern) (limit : Nat),
      readText? Pattern.ofTree? limit pattern.toTree.compact = some pattern
        ↔ pattern.toTree.nesting ≤ limit ∧ pattern.floatsReadBack = true)
    ∧ (∀ (type : Ty) (limit : Nat), readText? Ty.ofTree? limit type.toTree.compact
        = if type.toTree.nesting ≤ limit then some type else none)
    ∧ (∀ (name : FunctionName) (limit : Nat),
      readText? FunctionName.ofTree? limit name.toTree.compact
        = if name.toTree.nesting ≤ limit then some name else none)
    ∧ ∀ (type : UserType) (limit : Nat), readText? UserType.ofTree? limit type.toTree.compact
        = if type.toTree.nesting ≤ limit then some type else none
  := by
  refine ⟨?_, ?_, ?_, ?_, ?_⟩
  · intro e limit
    rw [e.readsAs.readText?_eq_some_iff, e.reread?_eq_self_iff]
  · intro pattern limit
    rw [pattern.readsAs.readText?_eq_some_iff, pattern.reread?_eq_self_iff]
  · exact fun type limit => type.readsBack.readText?_compact limit
  · exact fun name limit => name.readsBack.readText?_compact limit
  · exact fun type limit => type.readsBack.readText?_compact limit

/-- A call on the rail, as a step of a pipeline, with a lambda that matches a float and
returns an integer of more than 64 bits. -/
def scaling : Expr :=
  .apply 1 (.functionValue 2 (.stdlib "List" "map" 0))
    [.variable 3 "items", .lambda 4 [(5, "x")] (.matchCases 6 (.variable 7 "x")
      [(.float 8 ⟨0x3ff8000000000000⟩, .integer 9 (-123456789012345678901234567890))])]
    (.inPipe 10) .rail

/-- A pattern with a float in it. -/
def oneAndAHalf : Pattern :=
  .constructor 1 "Just" [.float 2 ⟨0x3ff8000000000000⟩]

/-- The call and the pattern read back under the limit of the text of a program. -/
theorem readText?_scaling :
  readText? Expr.ofTree? Json.depthLimit scaling.toTree.compact = some scaling
    ∧ readText? Pattern.ofTree? Json.depthLimit oneAndAHalf.toTree.compact = some oneAndAHalf
  := by
  obtain ⟨hexpressions, hpatterns, -⟩ := readText?_toTree
  refine ⟨(hexpressions _ _).mpr ⟨by decide, by decide +kernel⟩, ?_⟩
  exact (hpatterns _ _).mpr ⟨by decide, by decide +kernel⟩

/-! ### Programs -/

/-- A program whose text holds nothing but its main expression is read where the
expression is read. -/
theorem Program.parse?_expr (tree : Json) :
  parse? (Json.tagged "expr" tree).compact
    = (Expr.ofTree? (Json.depthLimit - 1) tree.toRaw).map fun e => ⟨e, 0, [], [], [], []⟩
  := by
  rw [parse?, RawJson.parse?_compact, Option.bind_some, Option.map_eq_bind]
  rfl

/-- Bindings in one another. -/
def ladder : Nat → Expr
  | 0 => .variable 1 "x"
  | n + 1 => .letIn 2 "x" (.integer 3 0) (ladder n)

/-- Each step of the ladder nests two levels deeper. -/
theorem nesting_ladder (n : Nat) :
  (ladder n).toTree.nesting = 2 * n + 2
  := by
  induction n with
  | zero => rfl
  | succ n ih =>
      have hvalue : (Expr.integer 3 0).toTree.nesting = 2 := rfl
      rw [ladder, Expr.toTree]
      simp only [Json.tagged, Json.nesting, Json.membersNesting, Json.itemsNesting,
        Json.nesting_ofId, ih, hvalue]
      omega

/-- The float `1e-23`. -/
def tiny : Binary64 :=
  ⟨0x3b282db34012b251⟩

/-- The text of 63 bindings in one another is not read, neither by itself nor as the main
expression of a program; and the text `1e-23` of a float is read as the float after it. -/
theorem parse?_ladder :
  (readText? Expr.ofTree? Json.depthLimit (ladder 63).toTree.compact = none
      ∧ Program.parse? (Json.tagged "expr" (ladder 63).toTree).compact = none)
    ∧ tiny.isFinite = true
    ∧ (Expr.float 1 tiny).toTree.compact = "\x7b\"Float\":[1,1e-23]\x7d"
    ∧ readText? Expr.ofTree? Json.depthLimit (Expr.float 1 tiny).toTree.compact
      = some (.float 1 ⟨tiny.bits + 1⟩)
  := by
  have hnesting := nesting_ladder 63
  have hback := (ladder 63).readsAs
  refine ⟨⟨?_, ?_⟩, by decide, by decide +kernel, ?_⟩
  · rw [hback.readText?_compact, hnesting]
    rfl
  · rw [Program.parse?_expr, hback (Json.depthLimit - 1), hnesting]
    rfl
  · have hfloat : tiny.reread? = some ⟨tiny.bits + 1⟩ := by decide +kernel
    rw [(Expr.float 1 tiny).readsAs.readText?_compact, Expr.reread?, hfloat]
    rfl

end LiveExpr
