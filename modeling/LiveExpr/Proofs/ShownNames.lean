import LiveExpr.FunctionName
import LiveExpr.Proofs.Numerals
import Mathlib.Data.List.Infix
import Mathlib.Data.List.TakeWhile
import Mathlib.Tactic.Common

/-!
# Names read back

Which texts show a function name, and which names their own shown form does not give back: the
marks `/` and `::` and the version suffix may stand in a part of a name too, and version 0 is
shown without a suffix. Main statements: `parse_eq_ok_iff`, what is read as a name,
`parse_display_iff`, the names that read back from their shown form, and
`parse_display_of_parse`, those among the names that were read from a text.
-/

namespace LiveExpr

namespace FunctionName

open Text (isDigit digitsValue)

/-! ### Slashes -/

/-- The parts of a text between slashes, as the library splits lists. -/
theorem splitSlashes_eq (text : List Char) :
  splitSlashes text = text.splitOn '/'
  := by
  induction text with
  | nil => rfl
  | cons c rest ih =>
    rw [splitSlashes, List.splitOn_cons_eq_if_modifyHead, ih]
    by_cases hc : c = '/'
    · rw [if_pos hc, if_pos (beq_iff_eq.mpr hc)]
    · rw [if_neg hc, if_neg (by simp [hc])]
      cases hrest : rest.splitOn '/' with
      | nil => exact absurd hrest (List.splitOn_ne_nil '/' rest)
      | cons part parts => rfl

theorem not_mem_of_mem_splitSlashes {text part : List Char} (h : part ∈ splitSlashes text) :
  '/' ∉ part
  := by
  fun_induction splitSlashes text generalizing part with
  | case1 =>
    obtain rfl := List.mem_singleton.mp h
    exact List.not_mem_nil
  | case2 rest ih =>
    rcases List.mem_cons.mp h with rfl | h
    · exact List.not_mem_nil
    · exact ih h
  | case3 c rest hc hrest ih =>
    obtain rfl := List.mem_singleton.mp h
    exact fun hmem => hc (List.mem_singleton.mp hmem).symm
  | case4 c rest hc first parts hrest ih =>
    rw [hrest] at ih
    rcases List.mem_cons.mp h with rfl | h
    · intro hmem
      rcases List.mem_cons.mp hmem with rfl | hmem
      · exact hc rfl
      · exact ih List.mem_cons_self hmem
    · exact ih (List.mem_cons_of_mem _ h)

/-- A text has the parts that make it up between slashes. -/
theorem splitSlashes_eq_iff {text : List Char} {parts : List (List Char)} (hparts : parts ≠ []) :
  splitSlashes text = parts ↔ ['/'].intercalate parts = text ∧ ∀ part ∈ parts, '/' ∉ part
  := by
  constructor
  · rintro rfl
    refine ⟨?_, fun _ => not_mem_of_mem_splitSlashes⟩
    rw [splitSlashes_eq, List.intercalate_splitOn]
  · rintro ⟨rfl, hslash⟩
    rw [splitSlashes_eq, List.splitOn_intercalate '/' hslash hparts]

/-! ### Colons -/

/-- Whether a text can stand before the first `::`: it has none itself, and no colon at its
end to which the mark would give a second one. -/
def IsBeforeColons (text : List Char) : Prop :=
  ¬ [':', ':'] <:+: text ∧ text.getLast? ≠ some ':'

theorem isBeforeColons_iff {text : List Char} :
  IsBeforeColons text ↔ ¬ [':', ':'] <:+: text ++ [':']
  := by
  have hlast : [':', ':'] <:+ text ++ [':'] ↔ text.getLast? = some ':' := by
    rw [List.suffix_concat_iff, List.getLast?_eq_some_iff]
    constructor
    · rintro (h | ⟨t, ht, rest, rfl⟩)
      · cases h
      · have htext : [':'] ++ [':'] = t ++ [':'] := ht
        obtain ⟨rfl, -⟩ := List.append_inj' htext rfl
        exact ⟨rest, rfl⟩
    · rintro ⟨rest, rfl⟩
      exact .inr ⟨[':'], rfl, rest, rfl⟩
  rw [IsBeforeColons, List.infix_concat_iff, hlast, not_or, and_comm]

/-- What stands before the first `::`, character by character. -/
theorem isBeforeColons_cons {c : Char} {text : List Char} :
  IsBeforeColons (c :: text) ↔ ¬ (c = ':' ∧ (text ++ [':']).head? = some ':')
    ∧ IsBeforeColons text
  := by
  have hhead : [':', ':'] <+: c :: (text ++ [':'])
      ↔ c = ':' ∧ (text ++ [':']).head? = some ':' := by
    rw [List.cons_prefix_cons, eq_comm]
    cases text <;> simp [eq_comm]
  rw [isBeforeColons_iff, isBeforeColons_iff, List.cons_append, List.infix_cons_iff, hhead, not_or]

/-- A text is split where its first `::` stands. -/
theorem splitColons?_eq_some_iff {text before after : List Char} :
  splitColons? text = some (before, after)
    ↔ text = before ++ ':' :: ':' :: after ∧ IsBeforeColons before
  := by
  fun_induction splitColons? text generalizing before with
  | case1 rest =>
    constructor
    · intro h
      cases h
      exact ⟨rfl, by simp [IsBeforeColons]⟩
    · rintro ⟨h, hbefore⟩
      rcases before with _ | ⟨c, _ | ⟨d, before⟩⟩
      · cases h
        rfl
      · cases h
        exact absurd rfl hbefore.2
      · cases h
        exact absurd ⟨[], before, rfl⟩ hbefore.1
  | case2 =>
    constructor
    · intro h
      cases h
    · rintro ⟨h, -⟩
      cases before <;> cases h
  | case3 c rest hcolons ih =>
    constructor
    · intro h
      obtain ⟨⟨first, second⟩, hrest, hsplit⟩ := Option.map_eq_some_iff.mp h
      cases hsplit
      obtain ⟨rfl, hfirst⟩ := ih.mp hrest
      refine ⟨rfl, isBeforeColons_cons.mpr ⟨?_, hfirst⟩⟩
      rintro ⟨rfl, hhead⟩
      rcases first with _ | ⟨d, first⟩
      · exact hcolons (':' :: after) rfl rfl
      · obtain rfl := Option.some.inj hhead
        exact hcolons _ rfl rfl
    · rintro ⟨h, hbefore⟩
      rcases before with _ | ⟨d, before⟩
      · cases h
        exact (hcolons after rfl rfl).elim
      · rw [List.cons_append] at h
        obtain ⟨rfl, hrest⟩ := List.cons.inj h
        rw [ih.mpr ⟨hrest, (isBeforeColons_cons.mp hbefore).2⟩]
        rfl

theorem splitColons?_eq_none_iff {text : List Char} :
  splitColons? text = none ↔ ¬ [':', ':'] <:+: text
  := by
  fun_induction splitColons? text with
  | case1 rest => simp [List.infix_cons_iff]
  | case2 => simp
  | case3 c rest hcolons ih =>
    have hhead : ¬ [':', ':'] <+: c :: rest := by
      rintro ⟨after, h⟩
      cases h
      exact hcolons after rfl rfl
    rw [Option.map_eq_none_iff, ih, List.infix_cons_iff, not_or, and_iff_right hhead]

/-! ### Versions -/

/-- Whether a text states a version: it is a number of 32 bits in ASCII digits. -/
def IsVersion (digits : List Char) : Prop :=
  digits ≠ [] ∧ (∀ c ∈ digits, isDigit c = true) ∧ digitsValue digits < UInt32.size

/-- Whether a text ends in `_v` and a version. -/
def EndsInVersion (text : List Char) : Prop :=
  ∃ base digits, IsVersion digits ∧ text = base ++ '_' :: 'v' :: digits

theorem isVersion_toDigits (version : UInt32) :
  IsVersion (Nat.toDigits 10 version.toNat)
  := by
  obtain ⟨hdigits, hvalue, hne⟩ := Text.toDigits_spec version.toNat
  refine ⟨hne, hdigits, ?_⟩
  rw [hvalue]
  exact version.toNat_lt

/-- The digits at the end of a text with a version suffix are the version, and the suffix
stands before them. -/
theorem span_suffix (base : List Char) {digits : List Char}
    (hdigits : ∀ c ∈ digits, isDigit c = true) :
  (base ++ '_' :: 'v' :: digits).reverse.takeWhile isDigit = digits.reverse
    ∧ (base ++ '_' :: 'v' :: digits).reverse.dropWhile isDigit = 'v' :: '_' :: base.reverse
  := by
  have hreverse : (base ++ '_' :: 'v' :: digits).reverse
      = digits.reverse ++ 'v' :: '_' :: base.reverse := by simp
  have hall : ∀ c ∈ digits.reverse, isDigit c = true := by
    intro c hc
    exact hdigits c (List.mem_reverse.mp hc)
  rw [hreverse, List.takeWhile_append_of_pos hall, List.dropWhile_append_of_pos hall]
  exact ⟨List.append_nil _, rfl⟩

/-- A version suffix is split off. -/
theorem splitVersion_suffix {base digits : List Char} (h : IsVersion digits) :
  splitVersion (base ++ '_' :: 'v' :: digits) = (base, UInt32.ofNat (digitsValue digits))
  := by
  obtain ⟨hne, hdigits, hsize⟩ := h
  obtain ⟨htake, hdrop⟩ := span_suffix base hdigits
  rw [splitVersion]
  simp only [htake, hdrop, List.reverse_reverse]
  rw [if_pos ⟨hne, hsize⟩]

/-- A text without a version suffix is left as it is. -/
theorem splitVersion_of_not_endsInVersion {text : List Char} (h : ¬ EndsInVersion text) :
  splitVersion text = (text, 0)
  := by
  rw [splitVersion]
  dsimp only
  split
  · next base hdrop =>
    apply if_neg
    rintro ⟨hne, hsize⟩
    refine h ⟨base.reverse, (text.reverse.takeWhile isDigit).reverse, ⟨hne, ?_, hsize⟩, ?_⟩
    · intro c hc
      exact List.mem_takeWhile_imp (List.mem_reverse.mp hc)
    · calc
        text = text.reverse.reverse := (List.reverse_reverse text).symm
        _ = (text.reverse.takeWhile isDigit ++ 'v' :: '_' :: base).reverse := by
          rw [← hdrop, List.takeWhile_append_dropWhile]
        _ = _ := by simp
  · rfl

/-- What is split off a text is a version suffix, if there is one. -/
theorem splitVersion_cases (text : List Char) :
  (∃ digits, IsVersion digits ∧ text = (splitVersion text).1 ++ '_' :: 'v' :: digits
      ∧ (splitVersion text).2 = UInt32.ofNat (digitsValue digits))
    ∨ ¬ EndsInVersion text ∧ splitVersion text = (text, 0)
  := by
  by_cases h : EndsInVersion text
  · obtain ⟨base, digits, hdigits, rfl⟩ := h
    left
    rw [splitVersion_suffix hdigits]
    exact ⟨digits, hdigits, rfl, rfl⟩
  · exact .inr ⟨h, splitVersion_of_not_endsInVersion h⟩

theorem splitVersion_prefix (text : List Char) :
  (splitVersion text).1 <+: text
  := by
  rcases splitVersion_cases text with ⟨digits, -, htext, -⟩ | ⟨-, h⟩
  · exact ⟨_, htext.symm⟩
  · rw [h]

/-- Digits that state 0 are all 0. -/
theorem eq_zero_of_digitsValue {digits : List Char} (hdigits : ∀ c ∈ digits, isDigit c = true)
    (h : digitsValue digits = 0) :
  ∀ c ∈ digits, c = '0'
  := by
  have hfold (n : Nat) (hn : digits.foldl (fun n c => 10 * n + (c.toNat - 48)) n = 0) :
      n = 0 ∧ ∀ c ∈ digits, c = '0' := by
    clear h
    induction digits generalizing n with
    | nil => exact ⟨hn, List.forall_mem_nil _⟩
    | cons c rest ih =>
      obtain ⟨hc, hrest⟩ := List.forall_mem_cons.mp hdigits
      obtain ⟨hvalue, hzeros⟩ := ih hrest _ hn
      simp only [isDigit, Bool.decide_and, Bool.and_eq_true, decide_eq_true_eq] at hc
      dsimp only at hvalue
      refine ⟨by omega, List.forall_mem_cons.mpr ⟨?_, hzeros⟩⟩
      apply Char.toNat_inj.mp
      change c.toNat = 48
      omega
  exact (hfold 0 h).2

/-! ### Reading -/

/-- Whether a text can stand between two marks of a shown name. -/
def IsPart (text : List Char) : Prop :=
  text ≠ [] ∧ '/' ∉ text

/-- Whether a module and a text after its colons show a function with its version. -/
structure IsPath (moduleName : String) (shown : List Char) (function : String)
    (version : UInt32) : Prop where
  isModule : IsPart moduleName.toList
  isBeforeColons : IsBeforeColons moduleName.toList
  isFunction : IsPart shown
  splits : splitVersion shown = (function.toList, version)

/-- Whether a text shows a name. -/
def Shows (text : List Char) : FunctionName → Prop
  | .user name => text = name.toList ∧ IsPart name.toList ∧ ¬ [':', ':'] <:+: name.toList
  | .stdlib moduleName function version =>
    ∃ shown, text = moduleName.toList ++ ':' :: ':' :: shown
      ∧ IsPath moduleName shown function version
  | .package owner library moduleName function version =>
    ∃ shown, text = owner.toList ++ '/' :: (library.toList ++ '/' :: (moduleName.toList
        ++ ':' :: ':' :: shown))
      ∧ IsPart owner.toList ∧ IsPart library.toList ∧ IsPath moduleName shown function version

variable {text : List Char} {name : FunctionName}

theorem IsPath.not_mem_slash {moduleName function : String} {shown : List Char}
    {version : UInt32} (h : IsPath moduleName shown function version) :
  '/' ∉ moduleName.toList ++ ':' :: ':' :: shown
  := by
  simp [h.isModule.2, h.isFunction.2]

theorem IsPath.splitColons?_eq {moduleName function : String} {shown : List Char}
    {version : UInt32} (h : IsPath moduleName shown function version) :
  splitColons? (moduleName.toList ++ ':' :: ':' :: shown) = some (moduleName.toList, shown)
  := splitColons?_eq_some_iff.mpr ⟨rfl, h.isBeforeColons⟩

/-- The parts of a path that was split at its colons. -/
theorem isPath_of_split {rest moduleName shown : List Char} (hslash : '/' ∉ rest)
    (hsplit : splitColons? rest = some (moduleName, shown)) (hmodule : moduleName ≠ [])
    (hshown : shown ≠ []) :
  rest = moduleName ++ ':' :: ':' :: shown
    ∧ IsPath (.ofList moduleName) shown (.ofList (splitVersion shown).1) (splitVersion shown).2
  := by
  obtain ⟨rfl, hbefore⟩ := splitColons?_eq_some_iff.mp hsplit
  simp only [List.mem_append, List.mem_cons, not_or] at hslash
  refine ⟨rfl, ?_, ?_, ⟨hshown, hslash.2.2.2⟩, ?_⟩
  · rw [String.toList_ofList]
    exact ⟨hmodule, hslash.1⟩
  · rwa [String.toList_ofList]
  · rw [String.toList_ofList]

theorem shows_of_parseChars (h : parseChars text = .ok name) :
  Shows text name
  := by
  unfold parseChars at h
  split at h
  · cases h
  · next hne =>
    split at h
    · next owner library rest hparts =>
      obtain ⟨rfl, hslash⟩ := (splitSlashes_eq_iff (by simp)).mp hparts
      split at h
      · cases h
      · next moduleName shown hcolons =>
        split at h
        · cases h
        · next hfull =>
          cases h
          simp only [not_or] at hfull
          obtain ⟨howner, hlibrary, hmodule, hshown⟩ := hfull
          obtain ⟨rfl, hpath⟩ := isPath_of_split (hslash rest (by simp)) hcolons hmodule hshown
          refine ⟨shown, ?_, ?_, ?_, hpath⟩
          · simp [List.intercalate]
          · rw [String.toList_ofList]
            exact ⟨howner, hslash owner (by simp)⟩
          · rw [String.toList_ofList]
            exact ⟨hlibrary, hslash library (by simp)⟩
    · next single hparts =>
      obtain ⟨hsingle, hslash⟩ := (splitSlashes_eq_iff (by simp)).mp hparts
      obtain rfl : single = text := by simpa [List.intercalate] using hsingle
      split at h
      · next hcolons =>
        cases h
        rw [Shows, String.toList_ofList]
        exact ⟨rfl, ⟨hne, hslash single (by simp)⟩, splitColons?_eq_none_iff.mp hcolons⟩
      · next moduleName shown hcolons =>
        split at h
        · cases h
        · next hfull =>
          cases h
          simp only [not_or] at hfull
          obtain ⟨rfl, hpath⟩ := isPath_of_split (hslash single (by simp)) hcolons hfull.1 hfull.2
          refine ⟨shown, ?_, hpath⟩
          rw [String.toList_ofList]
    · cases h

theorem parseChars_of_shows (h : Shows text name) :
  parseChars text = .ok name
  := by
  cases name with
  | user name =>
    obtain ⟨rfl, ⟨hne, hslash⟩, hcolons⟩ := h
    have hparts : splitSlashes name.toList = [name.toList] :=
      (splitSlashes_eq_iff (by simp)).mpr ⟨by simp [List.intercalate], by simpa using hslash⟩
    rw [parseChars, if_neg hne, hparts]
    simp only [splitColons?_eq_none_iff.mpr hcolons, String.ofList_toList]
  | stdlib moduleName function version =>
    obtain ⟨shown, rfl, hpath⟩ := h
    have hparts : splitSlashes (moduleName.toList ++ ':' :: ':' :: shown)
        = [moduleName.toList ++ ':' :: ':' :: shown] :=
      (splitSlashes_eq_iff (by simp)).mpr
        ⟨by simp [List.intercalate], by simpa using hpath.not_mem_slash⟩
    rw [parseChars, if_neg (by simp), hparts]
    simp only [hpath.splitColons?_eq]
    rw [if_neg (by simp [hpath.isModule.1, hpath.isFunction.1]), hpath.splits]
    simp only [String.ofList_toList]
  | package owner library moduleName function version =>
    obtain ⟨shown, rfl, howner, hlibrary, hpath⟩ := h
    have hparts : splitSlashes (owner.toList ++ '/' :: (library.toList ++ '/'
          :: (moduleName.toList ++ ':' :: ':' :: shown)))
        = [owner.toList, library.toList, moduleName.toList ++ ':' :: ':' :: shown] := by
      apply (splitSlashes_eq_iff (by simp)).mpr
      refine ⟨by simp [List.intercalate], ?_⟩
      simp only [List.forall_mem_cons]
      exact ⟨howner.2, hlibrary.2, hpath.not_mem_slash, List.forall_mem_nil _⟩
    rw [parseChars, if_neg (by simp), hparts]
    simp only [hpath.splitColons?_eq]
    rw [if_neg (by simp [howner.1, hlibrary.1, hpath.isModule.1, hpath.isFunction.1]),
      hpath.splits]
    simp only [String.ofList_toList]

/-- A text is read as a name exactly if it shows the name. -/
theorem parse_eq_ok_iff {text : String} :
  parse text = .ok name ↔ Shows text.toList name
  := ⟨shows_of_parseChars, parseChars_of_shows⟩

/-! ### Showing -/

/-- Whether a function of version 0, which is shown without a suffix, reads back. -/
def IsUnversioned (function : String) : Prop :=
  function ≠ "" ∧ ¬ EndsInVersion function.toList

/-- Whether a function with its version reads back. -/
def FunctionReadsBack (function : String) (version : UInt32) : Prop :=
  '/' ∉ function.toList ∧ (0 < version ∨ version = 0 ∧ IsUnversioned function)

/-- Whether a module reads back before a function. -/
def ModuleReadsBack (moduleName : String) : Prop :=
  moduleName ≠ "" ∧ '/' ∉ moduleName.toList ∧ ¬ [':', ':'] <:+: moduleName.toList
    ∧ moduleName.toList.getLast? ≠ some ':'

/-- Whether a name is what its parts and the marks between them say: no part holds a slash,
nothing that has to come first is empty, the first `::` is the one after the module, and the
version is the one that the text after it ends in. -/
def ReadsBack : FunctionName → Prop
  | .user name => name ≠ "" ∧ '/' ∉ name.toList ∧ ¬ [':', ':'] <:+: name.toList
  | .stdlib moduleName function version =>
    ModuleReadsBack moduleName ∧ FunctionReadsBack function version
  | .package owner library moduleName function version =>
    owner ≠ "" ∧ '/' ∉ owner.toList ∧ library ≠ "" ∧ '/' ∉ library.toList
      ∧ ModuleReadsBack moduleName ∧ FunctionReadsBack function version

theorem isPart_toList_iff {part : String} :
  IsPart part.toList ↔ part ≠ "" ∧ '/' ∉ part.toList
  := by
  rw [IsPart, ne_eq, String.toList_eq_nil_iff]

theorem pos_iff_ne_zero {version : UInt32} :
  0 < version ↔ version ≠ 0
  := by
  rw [UInt32.lt_iff_toNat_lt, ne_eq, ← UInt32.toNat_inj]
  exact Nat.pos_iff_ne_zero

theorem toList_withVersion {function : String} {version : UInt32} (h : version ≠ 0) :
  (withVersion function version).toList
    = function.toList ++ '_' :: 'v' :: Nat.toDigits 10 version.toNat
  := by
  have hdigits : (toString version.toNat).toList = Nat.toDigits 10 version.toNat :=
    Nat.toList_repr
  rw [withVersion, if_neg h, String.toList_append, String.toList_append, hdigits,
    List.append_assoc]
  rfl

/-- A function of version 0 is its own shown form, and is read as such unless it is empty or
ends in a version itself. -/
theorem splitVersion_eq_self_iff {text : List Char} :
  splitVersion text = (text, 0) ↔ ¬ EndsInVersion text
  := by
  refine ⟨?_, splitVersion_of_not_endsInVersion⟩
  rintro h ⟨base, digits, hdigits, rfl⟩
  rw [splitVersion_suffix hdigits] at h
  have hlength := congrArg List.length (Prod.mk.inj h).1
  simp at hlength

theorem isPath_withVersion_iff {moduleName function : String} {version : UInt32} :
  IsPath moduleName (withVersion function version).toList function version
    ↔ ModuleReadsBack moduleName ∧ FunctionReadsBack function version
  := by
  have hfunction : IsPart (withVersion function version).toList
        ∧ splitVersion (withVersion function version).toList = (function.toList, version)
      ↔ FunctionReadsBack function version := by
    rw [FunctionReadsBack, pos_iff_ne_zero]
    by_cases hversion : version = 0
    · subst hversion
      rw [withVersion, if_pos rfl, isPart_toList_iff, splitVersion_eq_self_iff, IsUnversioned]
      tauto
    · obtain ⟨hdigits, hvalue, -⟩ := Text.toDigits_spec version.toNat
      have hslash : '/' ∉ Nat.toDigits 10 version.toNat := fun h => by
        have := hdigits _ h
        contradiction
      rw [toList_withVersion hversion, splitVersion_suffix (isVersion_toDigits version), hvalue]
      simp [IsPart, hversion, hslash]
  rw [← hfunction, ModuleReadsBack, ← and_assoc (b := '/' ∉ _), ← isPart_toList_iff]
  constructor
  · intro h
    exact ⟨⟨h.isModule, h.isBeforeColons⟩, h.isFunction, h.splits⟩
  · rintro ⟨⟨hmodule, hbefore⟩, hpart, hsplits⟩
    exact ⟨hmodule, hbefore, hpart, hsplits⟩

/-- A path with a given shown form is one with this form at the place of the shown one. -/
theorem exists_isPath_iff {moduleName function shown : String} {version : UInt32} :
  (∃ rest, (moduleName ++ "::" ++ shown).toList = moduleName.toList ++ ':' :: ':' :: rest
      ∧ IsPath moduleName rest function version)
    ↔ IsPath moduleName shown.toList function version
  := by
  have htext : (moduleName ++ "::" ++ shown).toList
      = moduleName.toList ++ ':' :: ':' :: shown.toList := by
    simp [String.toList_append]
  constructor
  · rintro ⟨rest, hrest, hpath⟩
    rw [htext] at hrest
    cases List.append_cancel_left hrest
    exact hpath
  · intro hpath
    exact ⟨shown.toList, htext, hpath⟩

/-- The shown form of a name shows the name exactly if the name reads back. -/
theorem shows_display_iff (name : FunctionName) :
  Shows name.display.toList name ↔ name.ReadsBack
  := by
  cases name with
  | user name =>
    rw [Shows, display, isPart_toList_iff, ReadsBack]
    tauto
  | stdlib moduleName function version =>
    rw [ReadsBack, ← isPath_withVersion_iff, ← exists_isPath_iff, Shows, display]
    by_cases hmodule : moduleName = ""
    · have hnone : ¬ IsPart moduleName.toList := fun h => (isPart_toList_iff.mp h).1 hmodule
      constructor
      · rintro ⟨shown, -, hpath⟩
        exact absurd hpath.isModule hnone
      · rintro ⟨shown, -, hpath⟩
        exact absurd hpath.isModule hnone
    · rw [if_neg (by rwa [String.isEmpty_iff])]
  | package owner library moduleName function version =>
    have htext : (owner ++ "/" ++ library ++ "/" ++ moduleName ++ "::"
          ++ withVersion function version).toList
        = owner.toList ++ '/' :: (library.toList ++ '/'
          :: (moduleName ++ "::" ++ withVersion function version).toList) := by
      simp [String.toList_append]
    rw [ReadsBack, ← isPath_withVersion_iff, ← exists_isPath_iff, Shows, display, htext,
      isPart_toList_iff, isPart_toList_iff]
    constructor
    · rintro ⟨shown, hshown, howner, hlibrary, hpath⟩
      have hshown := (List.cons.inj (List.append_cancel_left hshown)).2
      have hshown := (List.cons.inj (List.append_cancel_left hshown)).2
      exact ⟨howner.1, howner.2, hlibrary.1, hlibrary.2, shown, hshown, hpath⟩
    · rintro ⟨howner, howner', hlibrary, hlibrary', shown, hshown, hpath⟩
      exact ⟨shown, by rw [hshown], ⟨howner, howner'⟩, ⟨hlibrary, hlibrary'⟩, hpath⟩

/-- The names that read back from their shown form. -/
theorem parse_display_iff (name : FunctionName) :
  parse name.display = .ok name ↔ name.ReadsBack
  := by
  rw [parse_eq_ok_iff, shows_display_iff]

/-! ### Names that were read -/

/-- Whether a name lacks a suffix when it is shown: it is of version 0, and its function is
empty or ends in a version. -/
def LacksSuffix : FunctionName → Prop
  | .user _ => False
  | .stdlib _ function version | .package _ _ _ function version =>
    version = 0 ∧ (function = "" ∨ EndsInVersion function.toList)

/-- Whether a text ends in a suffix of version 0. -/
def EndsInZero (text : List Char) : Prop :=
  ∃ base zeros, text = base ++ '_' :: 'v' :: zeros ∧ zeros ≠ [] ∧ ∀ c ∈ zeros, c = '0'

theorem IsPath.moduleReadsBack {moduleName function : String} {shown : List Char}
    {version : UInt32} (h : IsPath moduleName shown function version) :
  ModuleReadsBack moduleName
  := by
  obtain ⟨hmodule, hslash⟩ := isPart_toList_iff.mp h.isModule
  exact ⟨hmodule, hslash, h.isBeforeColons.1, h.isBeforeColons.2⟩

/-- A function that was read has no slash, and reads back if no suffix is lacking. -/
theorem IsPath.functionReadsBack_iff {moduleName function : String} {shown : List Char}
    {version : UInt32} (h : IsPath moduleName shown function version) :
  FunctionReadsBack function version
    ↔ ¬ (version = 0 ∧ (function = "" ∨ EndsInVersion function.toList))
  := by
  have hslash : '/' ∉ function.toList := by
    have hshorter := splitVersion_prefix shown
    rw [h.splits] at hshorter
    exact fun hmem => h.isFunction.2 (hshorter.subset hmem)
  rw [FunctionReadsBack, pos_iff_ne_zero, IsUnversioned]
  tauto

/-- A suffix is lacking only where one of version 0 was read. -/
theorem IsPath.endsInZero {moduleName function : String} {shown : List Char} {version : UInt32}
    (h : IsPath moduleName shown function version) (hversion : version = 0)
    (hfunction : function = "" ∨ EndsInVersion function.toList) :
  EndsInZero shown
  := by
  have hsplits := h.splits
  rcases splitVersion_cases shown with ⟨digits, ⟨hne, hdigits, hsize⟩, htext, hvalue⟩ | ⟨hno, hself⟩
  · rw [hsplits] at htext hvalue
    refine ⟨function.toList, digits, htext, hne, eq_zero_of_digitsValue hdigits ?_⟩
    have hzero := congrArg UInt32.toNat (hversion.symm.trans hvalue)
    rw [UInt32.toNat_ofNat_of_lt' hsize] at hzero
    exact hzero.symm
  · obtain ⟨rfl, -⟩ := Prod.mk.inj (hself.symm.trans hsplits)
    rcases hfunction with rfl | hfunction
    · exact absurd rfl h.isFunction.1
    · exact absurd hfunction hno

theorem EndsInZero.of_suffix {text whole : List Char} (h : EndsInZero text)
    (hsuffix : text <:+ whole) :
  EndsInZero whole
  := by
  obtain ⟨base, zeros, rfl, hne, hzeros⟩ := h
  obtain ⟨before, rfl⟩ := hsuffix
  exact ⟨before ++ base, zeros, (List.append_assoc before base _).symm, hne, hzeros⟩

/-- A name that a text shows reads back unless a suffix is lacking. -/
theorem readsBack_iff_of_shows (h : Shows text name) :
  name.ReadsBack ↔ ¬ name.LacksSuffix
  := by
  cases name with
  | user name =>
    obtain ⟨-, hpart, hcolons⟩ := h
    obtain ⟨hne, hslash⟩ := isPart_toList_iff.mp hpart
    exact iff_of_true ⟨hne, hslash, hcolons⟩ not_false
  | stdlib moduleName function version =>
    obtain ⟨shown, -, hpath⟩ := h
    rw [ReadsBack, hpath.functionReadsBack_iff, and_iff_right hpath.moduleReadsBack]
    rfl
  | package owner library moduleName function version =>
    obtain ⟨shown, -, howner, hlibrary, hpath⟩ := h
    obtain ⟨howner, howner'⟩ := isPart_toList_iff.mp howner
    obtain ⟨hlibrary, hlibrary'⟩ := isPart_toList_iff.mp hlibrary
    rw [ReadsBack, hpath.functionReadsBack_iff, and_iff_right howner, and_iff_right howner',
      and_iff_right hlibrary, and_iff_right hlibrary', and_iff_right hpath.moduleReadsBack]
    rfl

theorem endsInZero_of_lacksSuffix (h : Shows text name) (hlacks : name.LacksSuffix) :
  EndsInZero text
  := by
  cases name with
  | user name => exact hlacks.elim
  | stdlib moduleName function version =>
    obtain ⟨shown, rfl, hpath⟩ := h
    apply (hpath.endsInZero hlacks.1 hlacks.2).of_suffix
    exact ⟨moduleName.toList ++ [':', ':'], by simp⟩
  | package owner library moduleName function version =>
    obtain ⟨shown, rfl, -, -, hpath⟩ := h
    apply (hpath.endsInZero hlacks.1 hlacks.2).of_suffix
    exact ⟨owner.toList ++ '/' :: (library.toList ++ '/' :: (moduleName.toList ++ [':', ':'])),
      by simp⟩

/-- A name that was read from a text reads back from its shown form exactly if no suffix is
lacking there, and one can be lacking only where the text ends in a suffix of version 0. -/
theorem parse_display_of_parse {text : String} (h : parse text = .ok name) :
  (parse name.display = .ok name ↔ ¬ name.LacksSuffix)
    ∧ (name.LacksSuffix → EndsInZero text.toList)
  := by
  have hshows := parse_eq_ok_iff.mp h
  rw [parse_eq_ok_iff, shows_display_iff]
  exact ⟨readsBack_iff_of_shows hshows, endsInZero_of_lacksSuffix hshows⟩

/-- A version with a leading zero is shown without it, and reads back. -/
theorem parse_display_of_parse_leadingZero :
  parse "Dict::get_v02" = .ok (.stdlib "Dict" "get" 2)
    ∧ parse (display (.stdlib "Dict" "get" 2)) = .ok (.stdlib "Dict" "get" 2)
  := by
  have hread : parse "Dict::get_v02" = .ok (.stdlib "Dict" "get" 2) := by decide
  refine ⟨hread, (parse_display_of_parse hread).1.mpr ?_⟩
  rintro ⟨hversion, -⟩
  cases hversion

/-- A suffix of version 0 is read and not shown, so that the name shown without it is another
one, or none. -/
theorem parse_display_ne_of_zero :
  (parse "List::_v0" = .ok (.stdlib "List" "" 0)
      ∧ parse (display (.stdlib "List" "" 0)) = .error .emptyStdlibPart)
    ∧ parse "Dict::get_v2_v0" = .ok (.stdlib "Dict" "get_v2" 0)
    ∧ parse (display (.stdlib "Dict" "get_v2" 0)) = .ok (.stdlib "Dict" "get" 2)
  := by
  decide

end FunctionName

end LiveExpr
