import LiveExpr.Text.Normal
import Mathlib.Data.List.Chain
import Mathlib.Data.List.Nodup

/-!
# The table of decompositions

What is checked of the table as a whole, once its lines are spelled out: it lists the
composed characters in ascending order, states nothing of Hangul syllables and their
letters or of small letters, decomposes no second part, and chains no more than three
decompositions.  It follows that a composite decomposes to what was composed.  Main statements:
`isAtomic_of_mem_decomposed`, `decomposed_of_composePair?`.
-/

namespace LiveExpr.Text

/-! ### Words of lines -/

/-- The words of a text, which its characters state. -/
theorem words_ofList (text : List Char) :
  words (String.ofList text) = text.splitOn ' '
  := by
  rw [words, String.toList_ofList]

/-- The words of lines, of which the first is spelled out. -/
theorem spelled_cons {line : List Char} {lines : List String}
    {spelled : List (List (List Char))} (h : lines.map words = spelled) :
  (String.ofList line :: lines).map words = line.splitOn ' ' :: spelled
  := by
  rw [List.map_cons, words_ofList, h]

/-- What is checked of the words of lines is checked where they are spelled out. -/
theorem check_of_spelled {lines : List String} {spelled : List (List (List Char))}
    (check : List (List Char) → Bool) (h : lines.map words = spelled)
    (hcheck : check spelled.flatten = true) :
  check (lines.flatMap words) = true
  := by
  rw [List.flatMap_def, h, hcheck]

/-! ### The check -/

/-- A set of numbers: the number that has a binary digit 1 at each of their places. -/
def bitSet : List Nat → Nat
  | [] => 0
  | n :: rest => bitSet rest ||| 1 <<< n

theorem testBit_bitSet {numbers : List Nat} {n : Nat} :
  (bitSet numbers).testBit n = true ↔ n ∈ numbers
  := by
  induction numbers with
  | nil => simp [bitSet]
  | cons first rest ih =>
    rw [bitSet, Nat.testBit_or, Bool.or_eq_true, ih, Nat.one_shiftLeft, Nat.testBit_two_pow,
      decide_eq_true_iff, List.mem_cons, or_comm, eq_comm]

/-- The code points of the characters that a table composes. -/
def composedCodes (table : List Decomposition) : List Nat :=
  table.map fun d => d.composed.toNat

theorem mem_composedCodes {table : List Decomposition} {d : Decomposition} (h : d ∈ table) :
  d.composed.toNat ∈ composedCodes table
  := List.mem_map.mpr ⟨d, h, rfl⟩

/-- The decompositions of a table whose first parts are decomposed in at least `length`
further steps. -/
def chains (table : List Decomposition) : Nat → List Decomposition
  | 0 => table
  | length + 1 =>
    table.filter fun d => (bitSet (composedCodes (chains table length))).testBit d.first.toNat

/-- Whether a character is a Hangul syllable. -/
def isSyllable (c : Char) : Bool :=
  0xAC00 ≤ c.toNat && c.toNat ≤ 0xD7A3

/-- Whether a character is a letter of Hangul syllables. -/
def isLetter (c : Char) : Bool :=
  0x1100 ≤ c.toNat && c.toNat ≤ 0x11FF

/-- Whether a decomposition composes neither a Hangul syllable nor a letter of one, and has
no syllable for its second part. -/
def Decomposition.sparesHangul (d : Decomposition) : Bool :=
  !isSyllable d.composed && !isLetter d.composed && !d.second.any isSyllable

/-- Whether a character is a small letter from a to z. -/
def isSmallLetter (c : Char) : Bool :=
  97 ≤ c.toNat ∧ c.toNat ≤ 122

/-- Whether a decomposition leaves small letters alone: it composes another character,
and its parts are not all small letters. -/
def Decomposition.sparesLetters (d : Decomposition) : Bool :=
  0xC0 ≤ d.composed.toNat && !(isSmallLetter d.first && d.second.all isSmallLetter)

/-- What the normal form rests on: no character has two decompositions, none that has one is
a matter of Hangul or a small letter, no second part has one, and no chain has more than
three of them. -/
structure IsOrderly (table : List Decomposition) : Prop where
  nodup : (composedCodes table).Nodup
  sparesHangul : ∀ d ∈ table, d.sparesHangul = true
  sparesLetters : ∀ d ∈ table, d.sparesLetters = true
  second : ∀ d ∈ table, ∀ second ∈ d.second, second.toNat ∉ composedCodes table
  chains : chains table 3 = []

/-- The check of a table in which the composed characters ascend. -/
def isOrderly (table : List Decomposition) : Bool :=
  decide ((composedCodes table).IsChain (· < ·))
    && table.all Decomposition.sparesHangul
    && table.all Decomposition.sparesLetters
    && table.all (fun d =>
      d.second.all fun second => !(bitSet (composedCodes table)).testBit second.toNat)
    && (chains table 3).isEmpty

theorem IsOrderly.of_check {table : List Decomposition} (h : isOrderly table = true) :
  IsOrderly table
  := by
  simp only [isOrderly, Bool.and_eq_true, decide_eq_true_eq, List.all_eq_true,
    List.isEmpty_iff] at h
  obtain ⟨⟨⟨⟨hascends, hhangul⟩, hletters⟩, hsecond⟩, hchains⟩ := h
  have hnodup := (List.isChain_iff_pairwise.mp hascends).imp Nat.ne_of_lt
  refine ⟨hnodup, hhangul, hletters, ?_, hchains⟩
  intro d hd second hmem hcode
  have hbit := hsecond d hd
  rw [hmem, Option.all_some, testBit_bitSet.mpr hcode] at hbit
  cases hbit

set_option maxRecDepth 4000 in
theorem isOrderly_decompositions :
  IsOrderly decompositions
  := by
  apply IsOrderly.of_check
  apply check_of_spelled fun words => isOrderly (words.map Decomposition.read)
  · repeat apply spelled_cons
    exact rfl
  · decide +kernel

/-! ### What the tables hold -/

/-- What a table holds after a fold was put there for one of the entries, or was in it. -/
theorem exists_of_foldl {α β γ : Type} [BEq α] [Hashable α]
    {step : Std.HashMap α β → γ → Std.HashMap α β} {p : γ → Prop} {key : α} {value : β}
    (hstep : ∀ table entry, (step table entry)[key]? = some value →
      p entry ∨ table[key]? = some value)
    (entries : List γ) (table : Std.HashMap α β)
    (h : (entries.foldl step table)[key]? = some value) :
  (∃ entry ∈ entries, p entry) ∨ table[key]? = some value
  := by
  induction entries generalizing table with
  | nil => exact .inr h
  | cons entry rest ih =>
    obtain ⟨found, hfound, hp⟩ | hstepped := ih _ h
    · exact .inl ⟨found, List.mem_cons_of_mem entry hfound, hp⟩
    · obtain hp | htable := hstep table entry hstepped
      · exact .inl ⟨entry, List.mem_cons_self, hp⟩
      · exact .inr htable

/-- The table holds decompositions, each under the code point that it composes. -/
theorem decompositionTable_spec {code : Nat} {d : Decomposition}
    (h : decompositionTable[code]? = some d) :
  d ∈ decompositions ∧ d.composed.toNat = code
  := by
  have hstep (table : Std.HashMap Nat Decomposition) (entry : Decomposition)
      (hd : (table.insert entry.composed.toNat entry)[code]? = some d) :
      (entry = d ∧ entry.composed.toNat = code) ∨ table[code]? = some d := by
    rw [Std.HashMap.getElem?_insert] at hd
    split at hd
    · next hcode => exact .inl ⟨Option.some.inj hd, eq_of_beq hcode⟩
    · exact .inr hd
  obtain ⟨entry, hmem, rfl, hcode⟩ | hempty := exists_of_foldl hstep decompositions ∅ h
  · exact ⟨hmem, hcode⟩
  · simp at hempty

/-- A primary composite is the composed character of a decomposition into its parts. -/
theorem exists_of_compositionTable {a b : Nat} {c : Char}
    (h : compositionTable[(a, b)]? = some c) :
  ∃ d ∈ decompositions, d.composed = c
    ∧ d.first.toNat = a ∧ ∃ second, d.second = some second ∧ second.toNat = b
  := by
  refine (exists_of_foldl (p := fun d => d.composed = c ∧ d.first.toNat = a
    ∧ ∃ second, d.second = some second ∧ second.toNat = b) ?_ decompositions ∅ h).resolve_right
    (by simp)
  intro table entry hc
  cases hsecond : entry.second with
  | none =>
    rw [hsecond] at hc
    exact .inr hc
  | some second =>
    simp only [hsecond] at hc
    split at hc
    · rw [Std.HashMap.getElem?_insert] at hc
      split at hc
      · next hparts =>
        obtain ⟨hfirst, hb⟩ := Prod.mk.inj (eq_of_beq hparts)
        exact .inl ⟨Option.some.inj hc, hfirst, second, rfl, hb⟩
      · exact .inr hc
    · exact .inr hc

/-- Every decomposition is found in the table. -/
theorem isSome_foldl_insert {entries : List Decomposition} {code : Nat}
    {table : Std.HashMap Nat Decomposition}
    (h : table[code]?.isSome = true ∨ code ∈ composedCodes entries) :
  (entries.foldl (fun table d => table.insert d.composed.toNat d) table)[code]?.isSome = true
  := by
  induction entries generalizing table with
  | nil => exact h.resolve_right (List.not_mem_nil)
  | cons entry rest ih =>
    rw [List.foldl_cons]
    apply ih
    rw [Std.HashMap.getElem?_insert]
    split
    · exact .inl rfl
    · next hcode =>
      rw [composedCodes, List.map_cons, List.mem_cons] at h
      refine h.imp_right fun hmem => hmem.resolve_left fun heq => ?_
      exact hcode (beq_iff_eq.mpr heq.symm)

/-- One step decomposes a character as the one decomposition does that composes it. -/
theorem decomposition?_eq_some_iff {c : Char} {d : Decomposition} :
  decomposition? c = some d ↔ d ∈ decompositions ∧ d.composed = c
  := by
  unfold decomposition?
  constructor
  · intro h
    obtain ⟨hmem, hcode⟩ := decompositionTable_spec h
    exact ⟨hmem, Char.toNat_inj.mp hcode⟩
  · rintro ⟨hmem, rfl⟩
    have hsome : decompositionTable[d.composed.toNat]?.isSome = true :=
      isSome_foldl_insert (.inr (mem_composedCodes hmem))
    obtain ⟨other, hother⟩ := Option.isSome_iff_exists.mp hsome
    obtain ⟨hmemOther, hcodeOther⟩ := decompositionTable_spec hother
    rw [hother, List.inj_on_of_nodup_map isOrderly_decompositions.nodup hmemOther hmem hcodeOther]

/-- One step does not decompose a character that no decomposition composes. -/
theorem decomposition?_eq_none_iff {c : Char} :
  decomposition? c = none ↔ ∀ d ∈ decompositions, d.composed ≠ c
  := by
  simp only [Option.eq_none_iff_forall_ne_some, ne_eq, decomposition?_eq_some_iff, not_and]

/-! ### Decomposition -/

/-- Whether a character has no canonical decomposition, where `step?` gives the steps. -/
structure IsAtomic (step? : Char → Option Decomposition) (c : Char) : Prop where
  noSyllable : isSyllable c = false
  noStep : step? c = none

/-- Whether no chain of decompositions that begins at a character is longer than `length`. -/
def IsShallow (step? : Char → Option Decomposition) : Nat → Char → Prop
  | 0, c => step? c = none
  | length + 1, c => ∀ d, step? c = some d → IsShallow step? length d.first

/-- What the normal form rests on, of the steps of a decomposition. -/
structure IsSettling (step? : Char → Option Decomposition) : Prop where
  letter : ∀ c, isLetter c = true → step? c = none
  composed : ∀ c d, step? c = some d → isSyllable c = false
  second : ∀ c d, step? c = some d → ∀ second ∈ d.second, IsAtomic step? second
  shallow : ∀ c, IsShallow step? 3 c

/-- What no decomposition begins a chain of further steps with is shallow. -/
theorem isShallow_of_chains {length : Nat} {c : Char}
    (h : ∀ d ∈ chains decompositions length, d.composed ≠ c) :
  IsShallow decomposition? length c
  := by
  induction length generalizing c with
  | zero => exact decomposition?_eq_none_iff.mpr h
  | succ length ih =>
    intro d hd
    obtain ⟨hmem, hcomposed⟩ := decomposition?_eq_some_iff.mp hd
    apply ih
    intro other hother hfirst
    refine h d (List.mem_filter.mpr ⟨hmem, ?_⟩) hcomposed
    rw [← hfirst]
    exact testBit_bitSet.mpr (mem_composedCodes hother)

theorem isSettling_decomposition? :
  IsSettling decomposition?
  := by
  have hspares {c : Char} {d : Decomposition} (h : decomposition? c = some d) :
      (isSyllable c = false ∧ isLetter c = false) ∧ d.second.any isSyllable = false := by
    obtain ⟨hmem, rfl⟩ := decomposition?_eq_some_iff.mp h
    have hspares := isOrderly_decompositions.sparesHangul d hmem
    simpa only [Decomposition.sparesHangul, Bool.and_eq_true, Bool.not_eq_true'] using hspares
  constructor
  · intro c hletter
    cases h : decomposition? c with
    | none => rfl
    | some d =>
      rw [(hspares h).1.2] at hletter
      cases hletter
  · intro c d h
    exact (hspares h).1.1
  · intro c d h second hsecond
    have hmem := (decomposition?_eq_some_iff.mp h).1
    constructor
    · have hsyllable := (hspares h).2
      rw [hsecond] at hsyllable
      exact hsyllable
    · rw [decomposition?_eq_none_iff]
      rintro other hother rfl
      exact isOrderly_decompositions.second d hmem _ hsecond (mem_composedCodes hother)
  · intro c
    apply isShallow_of_chains
    rw [isOrderly_decompositions.chains]
    nofun

theorem syllableParts?_eq_none_iff {c : Char} :
  syllableParts? c = none ↔ isSyllable c = false
  := by
  unfold syllableParts?
  dsimp only
  split
  · next h =>
    have hsyllable : isSyllable c = true := by simpa [isSyllable] using h
    rw [hsyllable]
    split <;> simp
  · next h =>
    have hsyllable : isSyllable c = false := by simpa [isSyllable] using h
    simp only [hsyllable]

theorem toNat_ofNat {n : Nat} (h : n < 0xD800) :
  (Char.ofNat n).toNat = n
  := by
  rw [Char.ofNat, dif_pos (.inl h)]
  rfl

theorem isLetter_ofNat {n : Nat} (h : 0x1100 ≤ n ∧ n ≤ 0x11FF) :
  isLetter (Char.ofNat n) = true
  := by
  rw [isLetter, toNat_ofNat (by omega), Bool.and_eq_true, decide_eq_true_eq, decide_eq_true_eq]
  exact h

/-- A Hangul syllable consists of letters. -/
theorem isLetter_of_mem_syllableParts {c x : Char} {parts : List Char}
    (h : syllableParts? c = some parts) (hx : x ∈ parts) :
  isLetter x = true
  := by
  unfold syllableParts? at h
  dsimp only at h
  split at h
  · next hcode =>
    have hletters : parts ⊆ [Char.ofNat (0x1100 + (c.toNat - 0xAC00) / 588),
        Char.ofNat (0x1161 + (c.toNat - 0xAC00) % 588 / 28),
        Char.ofNat (0x11A7 + (c.toNat - 0xAC00) % 28)] := by
      split at h
      · obtain rfl := Option.some.inj h
        simp
      · obtain rfl := Option.some.inj h
        exact fun _ => id
    have hx := hletters hx
    simp only [List.mem_cons, List.not_mem_nil, or_false] at hx
    obtain hx | hx | hx := hx
    all_goals
      rw [hx]
      apply isLetter_ofNat
      omega
  · cases h

section

variable {step? : Char → Option Decomposition} {c : Char} {depth : Nat}

theorem decomposeChar_of_isAtomic (h : IsAtomic step? c) (depth : Nat) :
  decomposeChar step? depth c = [c]
  := by
  cases depth with
  | zero => rfl
  | succ depth =>
    rw [decomposeChar, syllableParts?_eq_none_iff.mpr h.noSyllable]
    simp only [h.noStep]

theorem decomposeChar_of_syllableParts {parts : List Char}
    (h : syllableParts? c = some parts) :
  decomposeChar step? (depth + 1) c = parts
  := by
  rw [decomposeChar, h]

theorem syllable_or_atomic_or_step (step? : Char → Option Decomposition) (c : Char) :
  (∃ parts, syllableParts? c = some parts) ∨ IsAtomic step? c ∨ ∃ d, step? c = some d
  := by
  cases hparts : syllableParts? c with
  | some parts => exact .inl ⟨parts, rfl⟩
  | none =>
    cases hstep : step? c with
    | some d => exact .inr (.inr ⟨d, rfl⟩)
    | none => exact .inr (.inl ⟨syllableParts?_eq_none_iff.mp hparts, hstep⟩)

variable (hsettling : IsSettling step?)
include hsettling

theorem IsSettling.isAtomic_letter (h : isLetter c = true) :
  IsAtomic step? c
  := by
  refine ⟨?_, hsettling.letter c h⟩
  simp only [isLetter, isSyllable, Bool.and_eq_true, decide_eq_true_eq, Bool.and_eq_false_iff,
    decide_eq_false_iff_not] at h ⊢
  omega

/-- The second part of a decomposition is left, and the first is decomposed further. -/
theorem IsSettling.decomposeChar_of_step {d : Decomposition} (h : step? c = some d)
    (depth : Nat) :
  decomposeChar step? (depth + 1) c = decomposeChar step? depth d.first ++ d.second.toList
  := by
  rw [decomposeChar, syllableParts?_eq_none_iff.mpr (hsettling.composed c d h)]
  simp only [h]
  cases hsecond : d.second with
  | none => rfl
  | some second =>
    simp only [decomposeChar_of_isAtomic (hsettling.second c d h second hsecond) depth]
    rfl

/-- What a chain of decompositions ends in is not decomposed. -/
theorem IsSettling.isAtomic_of_mem (hshallow : IsShallow step? depth c) {x : Char}
    (hx : x ∈ decomposeChar step? (depth + 1) c) :
  IsAtomic step? x
  := by
  induction depth generalizing c with
  | zero =>
    obtain ⟨parts, hparts⟩ | hatomic | ⟨d, hstep⟩ := syllable_or_atomic_or_step step? c
    · rw [decomposeChar_of_syllableParts hparts] at hx
      exact hsettling.isAtomic_letter (isLetter_of_mem_syllableParts hparts hx)
    · rw [decomposeChar_of_isAtomic hatomic, List.mem_singleton] at hx
      exact hx ▸ hatomic
    · rw [hshallow] at hstep
      cases hstep
  | succ depth ih =>
    obtain ⟨parts, hparts⟩ | hatomic | ⟨d, hstep⟩ := syllable_or_atomic_or_step step? c
    · rw [decomposeChar_of_syllableParts hparts] at hx
      exact hsettling.isAtomic_letter (isLetter_of_mem_syllableParts hparts hx)
    · rw [decomposeChar_of_isAtomic hatomic, List.mem_singleton] at hx
      exact hx ▸ hatomic
    · rw [hsettling.decomposeChar_of_step hstep, List.mem_append, Option.mem_toList] at hx
      obtain hfirst | hsecond := hx
      · exact ih (hshallow d hstep) hfirst
      · exact hsettling.second c d hstep x hsecond

/-- Once every chain has ended, nothing is decomposed further. -/
theorem IsSettling.decomposeChar_succ (hshallow : IsShallow step? depth c) :
  decomposeChar step? (depth + 2) c = decomposeChar step? (depth + 1) c
  := by
  induction depth generalizing c with
  | zero =>
    obtain ⟨parts, hparts⟩ | hatomic | ⟨d, hstep⟩ := syllable_or_atomic_or_step step? c
    · rw [decomposeChar_of_syllableParts hparts, decomposeChar_of_syllableParts hparts]
    · rw [decomposeChar_of_isAtomic hatomic, decomposeChar_of_isAtomic hatomic]
    · rw [hshallow] at hstep
      cases hstep
  | succ depth ih =>
    obtain ⟨parts, hparts⟩ | hatomic | ⟨d, hstep⟩ := syllable_or_atomic_or_step step? c
    · rw [decomposeChar_of_syllableParts hparts, decomposeChar_of_syllableParts hparts]
    · rw [decomposeChar_of_isAtomic hatomic, decomposeChar_of_isAtomic hatomic]
    · rw [hsettling.decomposeChar_of_step hstep, hsettling.decomposeChar_of_step hstep,
        ih (hshallow d hstep)]

end

/-- What a character decomposes to is not decomposed. -/
theorem isAtomic_of_mem_decomposed {c x : Char} (h : x ∈ decomposed c) :
  IsAtomic decomposition? x
  := isSettling_decomposition?.isAtomic_of_mem (isSettling_decomposition?.shallow c) h

/-! ### Composition -/

theorem eq_ofNat {c : Char} {n : Nat} (h : n = c.toNat) :
  Char.ofNat n = c
  := by
  rw [h, Char.ofNat_toNat]

/-- The letters of the syllable of an index. -/
theorem syllableParts?_ofNat {index : Nat} (h : index < 11172) :
  syllableParts? (Char.ofNat (0xAC00 + index))
    = some ([Char.ofNat (0x1100 + index / 588), Char.ofNat (0x1161 + index % 588 / 28)]
        ++ if index % 28 = 0 then [] else [Char.ofNat (0x11A7 + index % 28)])
  := by
  rw [syllableParts?, toNat_ofNat (by omega)]
  dsimp only
  rw [if_pos (by omega), Nat.add_sub_cancel_left]
  split
  · rfl
  · rfl

/-- A syllable of two letters, or of a syllable and a letter, decomposes to them. -/
theorem syllableParts?_of_syllable? {a b c : Char} (h : syllable? a b = some c) :
  (isLetter a = true ∧ syllableParts? c = some [a, b])
    ∨ ∃ parts, syllableParts? a = some parts ∧ syllableParts? c = some (parts ++ [b])
  := by
  unfold syllable? at h
  dsimp only at h
  split at h
  · next hletters =>
    obtain rfl := Option.some.inj h
    refine .inl ⟨?_, ?_⟩
    · rw [isLetter, Bool.and_eq_true, decide_eq_true_eq, decide_eq_true_eq]
      omega
    · rw [syllableParts?_ofNat (by omega), if_pos (by omega), List.append_nil,
        eq_ofNat (c := a) (by omega), eq_ofNat (c := b) (by omega)]
  · split at h
    · next hletters =>
      obtain rfl := Option.some.inj h
      obtain ⟨index, ha⟩ : ∃ index, a.toNat = 0xAC00 + index :=
        ⟨a.toNat - 0xAC00, by omega⟩
      have hparts := @syllableParts?_ofNat index (by omega)
      rw [if_pos (by omega), List.append_nil, eq_ofNat ha.symm] at hparts
      have hletter : Char.ofNat (0x11A7 + (index + (b.toNat - 0x11A7)) % 28) = b :=
        eq_ofNat (by omega)
      have hleading : (index + (b.toNat - 0x11A7)) / 588 = index / 588 := by omega
      have hvowel : (index + (b.toNat - 0x11A7)) % 588 / 28 = index % 588 / 28 := by omega
      refine .inr ⟨_, hparts, ?_⟩
      rw [ha, Nat.add_assoc, syllableParts?_ofNat (by omega), if_neg (by omega), hletter,
        hleading, hvowel]
    · cases h

/-- A composite decomposes to what its first part decomposes to, and its second part. -/
theorem decomposed_of_composePair? {a b c : Char} (h : composePair? a b = some c) :
  decomposed c = decomposed a ++ [b]
  := by
  rw [composePair?, Option.orElse_eq_or, Option.or_eq_some_iff] at h
  obtain hsyllable | ⟨-, htable⟩ := h
  · obtain ⟨hletter, hc⟩ | ⟨parts, ha, hc⟩ := syllableParts?_of_syllable? hsyllable
    · rw [decomposed, decomposed, decomposeChar_of_syllableParts hc,
        decomposeChar_of_isAtomic (isSettling_decomposition?.isAtomic_letter hletter)]
      rfl
    · rw [decomposed, decomposed, decomposeChar_of_syllableParts hc,
        decomposeChar_of_syllableParts ha]
  · obtain ⟨d, hmem, hcomposed, hfirst, second, hsecond, hb⟩ := exists_of_compositionTable htable
    obtain rfl := Char.toNat_inj.mp hfirst
    obtain rfl := Char.toNat_inj.mp hb
    have hstep : decomposition? c = some d := decomposition?_eq_some_iff.mpr ⟨hmem, hcomposed⟩
    have hshallow : IsShallow decomposition? 2 d.first :=
      isSettling_decomposition?.shallow c d hstep
    rw [decomposed, isSettling_decomposition?.decomposeChar_of_step hstep, hsecond,
      ← isSettling_decomposition?.decomposeChar_succ hshallow]
    rfl

end LiveExpr.Text
