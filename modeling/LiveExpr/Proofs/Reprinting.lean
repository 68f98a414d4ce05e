import LiveExpr.CommandLine
import LiveExpr.Proofs.Fragments
import LiveExpr.Proofs.Reserved

/-!
# Values printed and read again

The command line prints each value of a list and each input of a program, and reads the text by
itself.  Parts of a value that was read stand in order and nest less deep than the value, so
printing loses nothing if no object begins with the name that is reserved for numbers, and
what is read is the direct decoding of the part.  Main statement:
`CommandLine.hashValues_and_scope_direct`.
-/

namespace LiveExpr

namespace Json

/-- The text of an item of an array that was read states the item if and only if no object
in it begins with the reserved name. -/
theorem parse?_compact_item {text : String} {items : List Json} {item : Json}
    (h : parse? text = some (.array items)) (hitem : item ∈ items) :
  parse? item.compact = some item ↔ item.isUnreserved = true
  := by
  obtain ⟨hsorted, hdepth⟩ := sorted_and_nesting_of_parse? h
  have hitems : itemsNesting items ≤ depthLimit := Nat.le_of_succ_le hdepth
  exact parse?_compact_iff (itemsSorted_iff.mp hsorted item hitem)
    (itemsNesting_le_iff.mp hitems item hitem)

end Json

/-- What is read from the text of a value that the text states is the direct decoding. -/
theorem Roundtrip.read_of_parse? {text : String} {j : Json} (h : Json.parse? text = some j) :
  read text = ofJson j
  := by
  rw [read, Codec.parseJson, h]
  rfl

namespace Program

/-- Inputs are in order and nest less deep than their tree. -/
theorem sorted_and_nesting_of_inputsOfTree? {depth : Nat} {tree : RawJson}
    {inputs : List (String × Json)} (h : inputsOfTree? depth tree = some inputs) :
  (Json.object inputs).Sorted ∧ Json.membersNesting inputs ≤ depth
  := by
  unfold inputsOfTree? at h
  split at h
  · obtain ⟨pairs, hpairs, rfl⟩ := Option.map_eq_some_iff.mp h
    obtain ⟨hsorted, hnesting⟩ := Json.sorted_and_nesting_of_convertMembers? _ hpairs
    obtain ⟨hsorted, hnesting⟩ := Json.sorted_and_nesting_ofPairs hsorted hnesting
    exact ⟨hsorted, Nat.le_succ_of_le hnesting⟩
  · cases h

/-- The inputs of a program are in order and nest less deep than the program. -/
theorem sorted_and_nesting_of_ofTree? {depth : Nat} {raw : RawJson} {p : Program}
    (h : ofTree? depth raw = some p) :
  (Json.object p.inputs).Sorted ∧ Json.membersNesting p.inputs ≤ depth
  := by
  rw [ofTree?] at h
  obtain ⟨fields, -, h⟩ := Option.bind_eq_some_iff.mp h
  split at h
  · obtain ⟨_, -, h⟩ := Option.bind_eq_some_iff.mp h
    obtain ⟨_, -, h⟩ := Option.bind_eq_some_iff.mp h
    obtain ⟨_, -, h⟩ := Option.bind_eq_some_iff.mp h
    obtain ⟨_, -, h⟩ := Option.bind_eq_some_iff.mp h
    obtain ⟨_, -, h⟩ := Option.bind_eq_some_iff.mp h
    obtain ⟨inputs, hinputs, h⟩ := Option.bind_eq_some_iff.mp h
    obtain rfl := Option.some.inj h
    unfold RawJson.orElse at hinputs
    split at hinputs
    · obtain rfl := Option.some.inj hinputs
      exact ⟨⟨List.Pairwise.nil, trivial⟩, Nat.zero_le _⟩
    · obtain ⟨hsorted, hnesting⟩ := sorted_and_nesting_of_inputsOfTree? hinputs
      exact ⟨hsorted, Nat.le_succ_of_le hnesting⟩
  · cases h

variable {text : String} {p : Program} (h : parse? text = some p)
include h

/-- The names of the inputs of a program that was read ascend. -/
theorem ascending_inputs :
  Fields.Ascending p.inputs
  := by
  obtain ⟨raw, -, htree⟩ := Option.bind_eq_some_iff.mp h
  exact (sorted_and_nesting_of_ofTree? htree).1.1

/-- The text of an input of a program that was read states the input if and only if no
object in it begins with the reserved name. -/
theorem parse?_compact_input {input : String × Json} (hinput : input ∈ p.inputs) :
  Json.parse? input.2.compact = some input.2 ↔ input.2.isUnreserved = true
  := by
  obtain ⟨raw, -, htree⟩ := Option.bind_eq_some_iff.mp h
  obtain ⟨hsorted, hnesting⟩ := sorted_and_nesting_of_ofTree? htree
  exact Json.parse?_compact_iff (Json.membersSorted_iff.mp hsorted.2 input hinput)
    (Json.membersNesting_le_iff.mp hnesting input hinput)

end Program

/-! ### One value after another -/

section

variable {ε α β : Type} {f g : α → Except ε β} {items : List α} {values : List β}

theorem mapM_congr (h : ∀ item ∈ items, f item = g item) :
  items.mapM f = items.mapM g
  := by
  induction items with
  | nil => rfl
  | cons item rest ih =>
    obtain ⟨hitem, hrest⟩ := List.forall_mem_cons.mp h
    rw [List.mapM_cons, List.mapM_cons, hitem, ih hrest]

theorem forall₂_of_mapM (h : items.mapM f = .ok values) :
  List.Forall₂ (fun item value => f item = .ok value) items values
  := by
  induction items generalizing values with
  | nil =>
    obtain rfl := Except.ok.inj h
    exact .nil
  | cons item rest ih =>
    rw [List.mapM_cons] at h
    obtain ⟨value, hvalue, h⟩ := Codec.bind_eq_ok h
    obtain ⟨others, hothers, h⟩ := Codec.bind_eq_ok h
    obtain rfl := Except.ok.inj h
    exact .cons hvalue (ih hothers)

end

namespace Program

/-- The direct decoding of an input, with its name. -/
def directValue (input : String × Json) : Except CodecError (String × Value) :=
  (Roundtrip.ofJson input.2).map fun value => (input.1, value)

/-- Inputs are decoded to values of the same names, one for each. -/
theorem forall₂_of_directValues {inputs : Fields Json} {values : Fields Value}
    (h : inputs.mapM directValue = .ok values) :
  List.Forall₂ (fun input value => input.1 = value.1 ∧ Roundtrip.ofJson input.2 = .ok value.2)
    inputs values
  := by
  apply (forall₂_of_mapM h).imp
  intro input value hvalue
  obtain ⟨decoded, hdecoded, rfl⟩ := Codec.map_eq_ok hvalue
  exact ⟨rfl, hdecoded⟩

/-- A name is bound to the direct decoding of the input of the name, and no other name is
bound. -/
theorem get?_of_directValues {inputs : Fields Json} {values : Fields Value}
    (h : inputs.mapM directValue = .ok values) (name : String) :
  (values.get? name).map .ok = (inputs.get? name).map Roundtrip.ofJson
  := by
  have hvalues := forall₂_of_directValues h
  clear h
  induction hvalues with
  | nil => rfl
  | @cons input value _ _ hinput _ ih =>
    obtain ⟨hname, hvalue⟩ := hinput
    rw [Fields.get?, Fields.get?, hname]
    split
    · exact congrArg some hvalue.symm
    · exact ih

/-- The variables of a program that was read are its inputs, decoded directly. -/
theorem scope_eq {text : String} {p : Program} (h : parse? text = some p)
    (hname : ∀ input ∈ p.inputs, input.2.isUnreserved = true) :
  p.scope = p.inputs.mapM directValue
  := by
  have hvalues : p.inputs.mapM inputValue = p.inputs.mapM directValue := by
    apply mapM_congr
    intro input hinput
    have hinput := (parse?_compact_input h hinput).mpr (hname input hinput)
    rw [inputValue, Roundtrip.read_of_parse? hinput, directValue]
    rfl
  rw [scope, hvalues]
  cases hdirect : p.inputs.mapM directValue with
  | error e => rfl
  | ok values =>
    have hvalues : Fields.Ascending values :=
      Fields.ascending_of_forall₂ (r := fun j value => Roundtrip.ofJson j = .ok value)
        (forall₂_of_directValues hdirect) (ascending_inputs h)
    exact congrArg Except.ok (Fields.ofPairs_of_ascending hvalues)

end Program

namespace CommandLine

/-- The values of an array that was read are hashed as they are decoded directly. -/
theorem hashValues_eq {text : String} {items : List Json}
    (h : Json.parse? text = some (.array items))
    (hname : ∀ item ∈ items, item.isUnreserved = true) (version : UInt32) :
  hashValues text version
    = ((items.mapM Roundtrip.ofJson).bind (Hashable.hash version)).mapError .codec
  := by
  have hvalues : (items.mapM fun item => Roundtrip.read item.compact)
      = items.mapM Roundtrip.ofJson := by
    apply mapM_congr
    intro item hitem
    exact Roundtrip.read_of_parse? ((Json.parse?_compact_item h hitem).mpr (hname item hitem))
  rw [hashValues, h]
  simp only [hvalues]
  cases items.mapM Roundtrip.ofJson with
  | error e => rfl
  | ok values =>
    simp only [Except.bind]
    cases Hashable.hash version values <;> rfl

/-- The text that an item of an array or an input of a program is printed as states it if
and only if no object in it begins with the reserved name.  Where that is so of all of
them, the items of an array that was read are hashed, and the inputs of a program that was
read are bound, as they are decoded directly, or the first that cannot be decoded is the
error. -/
theorem hashValues_and_scope_direct (text : String) (version : UInt32) :
  (∀ items, Json.parse? text = some (.array items) →
      (∀ item ∈ items, (Json.parse? item.compact = some item ↔ item.isUnreserved = true))
        ∧ ((∀ item ∈ items, item.isUnreserved = true) →
          hashValues text version
            = ((items.mapM Roundtrip.ofJson).bind (Hashable.hash version)).mapError .codec))
    ∧ ∀ p, Program.parse? text = some p →
        (∀ input ∈ p.inputs,
            (Json.parse? input.2.compact = some input.2 ↔ input.2.isUnreserved = true))
          ∧ ((∀ input ∈ p.inputs, input.2.isUnreserved = true) →
            p.scope = p.inputs.mapM Program.directValue
              ∧ ∀ scope, p.scope = .ok scope → ∀ name,
                (Fields.get? name scope).map .ok
                  = (Fields.get? name p.inputs).map Roundtrip.ofJson)
  := by
  constructor
  · intro items h
    exact ⟨fun item => Json.parse?_compact_item h, fun hname => hashValues_eq h hname version⟩
  · intro p h
    refine ⟨fun input => Program.parse?_compact_input h, fun hname => ?_⟩
    have hscope := Program.scope_eq h hname
    refine ⟨hscope, fun scope hok name => ?_⟩
    exact Program.get?_of_directValues (hscope.symm.trans hok) name

/-- A number with an exponent. -/
def hundred : Numeral :=
  ⟨false, 1, [], some ⟨false, ⟨2, by decide⟩, []⟩⟩

/-- A value on the error rail, a negative zero, and the number. -/
def mixedMembers : List (String × Json) :=
  [("a", Roundtrip.envelope "errorrail" (Roundtrip.envelope "option" .null)),
    ("b", .number ⟨true, 0, [], none⟩), ("c", .number hundred)]

/-- An array of a value on the error rail and of a record, and a program with inputs of both
kinds. -/
def mixedItems : List Json :=
  [Roundtrip.envelope "errorrail" (Roundtrip.envelope "option" .null), .object mixedMembers]

def mixedTree : Json :=
  .object [("expr", Json.tagged "Null" (.ofInt 1)), ("inputs", .object mixedMembers)]

def mixedProgram : Program :=
  ⟨.null 1, 0, [], [], [], mixedMembers⟩

def mixedFields : List (String × Value) :=
  [("a", .errorRail .nothing), ("b", .int 0), ("c", .float ⟨0x4059000000000000⟩)]

/-- The array is hashed as the list of two values, which its first item does not replace, and
the inputs are bound to theirs. -/
theorem hashValues_and_scope_mixed :
  Json.parse? (Json.array mixedItems).pretty = some (.array mixedItems)
    ∧ hashValues (Json.array mixedItems).pretty 1
      = (Hashable.hash 1 [.errorRail .nothing, .record mixedFields]).mapError .codec
    ∧ Program.parse? mixedTree.pretty = some mixedProgram
    ∧ mixedProgram.scope = .ok mixedFields
  := by
  have hsorted : (Json.array mixedItems).Sorted := by
    have hrail : (Roundtrip.envelope "errorrail" (Roundtrip.envelope "option" .null)).Sorted :=
      ⟨Codec.ascending_envelope _ _, trivial,
        ⟨Codec.ascending_envelope _ _, trivial, trivial, trivial⟩, trivial⟩
    have hnames : Fields.Ascending mixedMembers :=
      Fields.ascending_cons_cons (by decide)
        (Fields.ascending_cons_cons (by decide) (Fields.ascending_singleton _))
    exact ⟨hrail, ⟨hnames, hrail, trivial, trivial, trivial⟩, trivial⟩
  have harray : Json.parse? (Json.array mixedItems).pretty = some (.array mixedItems) :=
    Json.parse?_pretty hsorted (by decide) (by decide)
  have hprogram : Program.parse? mixedTree.pretty = some mixedProgram := by
    rw [Program.parse?, RawJson.parse?_pretty, Option.bind_some]
    rfl
  have hhash := (hashValues_and_scope_direct (Json.array mixedItems).pretty 1).1
  have hscope := (hashValues_and_scope_direct mixedTree.pretty 1).2
  have hfloat : hundred.toBinary64 = ⟨0x4059000000000000⟩ := by decide +kernel
  rw [mixedFields, ← hfloat]
  refine ⟨harray, ?_, hprogram, ?_⟩
  · rw [(hhash _ harray).2 (by decide)]
    rfl
  · rw [((hscope _ hprogram).2 (by decide)).1]
    rfl

/-- An array of a record that is read where the reserved name does not come first is not
hashed, since the record is printed with the reserved name first; so is an input of a
program not bound. -/
theorem hashValues_reservedRecord :
  ∃ item : Json,
    Json.parse? (Json.array [Value.reservedLast]).compact = some (.array [item])
      ∧ Roundtrip.ofJson item = .ok Value.reservedRecord
      ∧ hashValues (Json.array [Value.reservedLast]).compact 1 = .error (.codec .invalidJson)
      ∧ ∃ p : Program,
        Program.parse? (Json.object [("expr", Json.tagged "Null" (.ofInt 1)),
            ("inputs", .object [("x", Value.reservedLast)])]).compact = some p
          ∧ p.inputs = [("x", item)] ∧ p.scope = .error .invalidJson
  := by
  have hparse : Json.parse? (Json.array [Value.reservedLast]).compact
      = some (.array [.object [(Json.numberKey, .string "5"), ("a", .ofInt 1)]]) := by
    rw [Json.parse?, RawJson.parse?_compact]
    rfl
  have hback : Roundtrip.read
        (Json.object [(Json.numberKey, .string "5"), ("a", .ofInt 1)]).compact
      = .error .invalidJson := by
    rw [Roundtrip.read, Codec.parseJson, Json.parse?, RawJson.parse?_compact]
    rfl
  refine ⟨_, hparse, rfl, ?_, ⟨.null 1, 0, [], [], [],
    [("x", .object [(Json.numberKey, .string "5"), ("a", .ofInt 1)])]⟩, ?_, rfl, ?_⟩
  · rw [hashValues, hparse]
    simp only [List.mapM_cons, hback]
    rfl
  · rw [Program.parse?, RawJson.parse?_compact, Option.bind_some]
    rfl
  · rw [Program.scope, List.mapM_cons, Program.inputValue, hback]
    rfl

end CommandLine

end LiveExpr
