import LiveExpr.Proofs.Words

/-!
# Syllables in normal form

Two letters of a Hangul syllable compose into the syllable, so that a text need not be its
own normal form.  Neither of the letters is decomposed or moved past the other.  Main
statement: `nfc_letters`.
-/

namespace LiveExpr.Text

/-! ### The tables -/

/-- A range that is found is one of the table, and holds the code point. -/
theorem RangeTable.mem_of_search {table : RangeTable} {code low high : Nat} {range : CodeRange}
    (h : table.search code low high = some range) :
  range ∈ table ∧ range.first ≤ code ∧ code ≤ range.last
  := by
  fun_induction search table code low high with
  | case1 => cases h
  | case2 low high hlow middle other hother hbelow ih => exact ih h
  | case3 low high hlow middle other hother hbelow habove ih => exact ih h
  | case4 low high hlow middle other hother hbelow habove =>
      obtain rfl := Option.some.inj h
      exact ⟨Array.mem_of_getElem? hother, Nat.not_lt.mp hbelow, Nat.not_lt.mp habove⟩
  | case5 => cases h

/-- A character that no range of the combining marks holds is a starter. -/
theorem combiningClass_eq_zero {c : Char}
    (h : ∀ range ∈ combiningClasses, ¬(range.first ≤ c.toNat ∧ c.toNat ≤ range.last)) :
  combiningClass c = 0
  := by
  rw [combiningClass]
  split
  · rfl
  · cases hfound : combiningClasses.search c.toNat 0 combiningClasses.size with
    | none => rw [RangeTable.find?, hfound]; rfl
    | some range =>
        obtain ⟨hmem, hrange⟩ := RangeTable.mem_of_search hfound
        exact absurd hrange (h range hmem)

/-- The letters of a Hangul syllable. -/
def letters : List Char := ['\u1100', '\u1161']

/-- Whether a range holds none of the code points of the letters, nor of those between. -/
def CodeRange.sparesSyllable (range : CodeRange) : Bool :=
  range.last < 0x1100 || 0x1161 < range.first

set_option maxRecDepth 4000 in
theorem sparesSyllable_of_mem {range : CodeRange} (h : range ∈ combiningClasses) :
  range.sparesSyllable = true
  := by
  rw [combiningClasses, RangeTable.ofLines, List.mem_toArray] at h
  revert range
  rw [← List.all_eq_true]
  apply check_of_spelled fun words =>
    (words.map RangeTable.readRange).all CodeRange.sparesSyllable
  · repeat apply spelled_cons
    exact rfl
  · decide +kernel

/-! ### The letters -/

theorem combiningClass_eq_zero_of_letter {c : Char} (h : 0x1100 ≤ c.toNat ∧ c.toNat ≤ 0x1161) :
  combiningClass c = 0
  := by
  apply combiningClass_eq_zero
  intro range hrange
  have hspares := sparesSyllable_of_mem hrange
  rw [CodeRange.sparesSyllable, Bool.or_eq_true, decide_eq_true_eq,
    decide_eq_true_eq] at hspares
  omega

/-- The syllable of the letters. -/
def syllable : List Char := ['\uac00']

/-- A letter is not decomposed. -/
theorem decomposed_letter {c : Char} (h : isLetter c = true) :
  decomposed c = [c]
  := decomposed_of_isAtomic (isSettling_decomposition?.isAtomic_letter h)

theorem compose_letters :
  compose letters = syllable
  := by
  have hsyllable : syllable? '\u1100' '\u1161' = some '\uac00' := rfl
  have hpair : composePair? '\u1100' '\u1161' = some '\uac00' := by
    rw [composePair?, hsyllable, Option.orElse_eq_or, Option.some_or]
  rw [letters, compose, combiningClass_eq_zero_of_letter (by decide), if_pos rfl, composeAfter,
    hpair]
  simp only [List.isEmpty_nil, Bool.true_or, if_true]
  rw [composeAfter, List.reverse_nil, syllable]

/-- The letters are normalized to their syllable. -/
theorem nfc_letters :
  nfc (String.ofList letters) = String.ofList syllable
  := by
  have hplain : ¬isPlain letters = true := by decide
  have hdecomposed : letters.flatMap decomposed = letters := by
    rw [letters, List.flatMap_cons, List.flatMap_cons, List.flatMap_nil,
      decomposed_letter (by decide), decomposed_letter (by decide), List.append_nil,
      List.singleton_append]
  have horder : order letters = letters := by
    have hclass : combiningClass '\u1161' = 0 := combiningClass_eq_zero_of_letter (by decide)
    rw [letters, order, List.foldr_cons, List.foldr_cons, List.foldr_nil, insertMark, insertMark,
      hclass, if_neg fun h => absurd h.1 (Nat.lt_irrefl 0)]
  rw [nfc, String.toList_ofList, nfcChars, if_neg hplain, decompose, hdecomposed, horder,
    compose_letters]

end LiveExpr.Text
