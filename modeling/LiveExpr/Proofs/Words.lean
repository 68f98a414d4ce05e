import LiveExpr.Proofs.Normalization

/-!
# Words in normal form

A word of small letters is the normal form of no text but itself: no canonical
decomposition gives small letters only, and no composite is one.  Main statement:
`eq_of_nfc_eq`.
-/

namespace LiveExpr.Text

/-! ### Composition -/

theorem not_isSmallLetter {c : Char} (h : 0xC0 ≤ c.toNat) :
  isSmallLetter c = false
  := by
  simp only [isSmallLetter, decide_eq_false_iff_not]
  omega

/-- A composite is no small letter. -/
theorem not_isSmallLetter_composite {a b c : Char} (h : composePair? a b = some c) :
  isSmallLetter c = false
  := by
  apply not_isSmallLetter
  rw [composePair?, Option.orElse_eq_or, Option.or_eq_some_iff] at h
  obtain hsyllable | ⟨-, htable⟩ := h
  · rw [syllable?] at hsyllable
    split at hsyllable
    · obtain rfl := Option.some.inj hsyllable
      rw [toNat_ofNat (by omega)]
      omega
    · split at hsyllable
      · obtain rfl := Option.some.inj hsyllable
        rw [toNat_ofNat (by omega)]
        omega
      · cases hsyllable
  · obtain ⟨d, hd, rfl, -⟩ := exists_of_compositionTable htable
    have hspares := isOrderly_decompositions.sparesLetters d hd
    rw [Decomposition.sparesLetters, Bool.and_eq_true, decide_eq_true_eq] at hspares
    exact hspares.1

/-- What begins with a character that is no small letter is composed to a text that does
so. -/
theorem not_isSmallLetter_composeAfter {starter : Char} (h : isSmallLetter starter = false)
    (skipped : List Char) (latest : Nat) (rest : List Char) :
  ∃ c ∈ composeAfter starter skipped latest rest, isSmallLetter c = false
  := by
  induction rest generalizing starter skipped latest with
  | nil => exact ⟨starter, List.mem_cons_self, h⟩
  | cons c rest ih =>
    rw [composeAfter]
    split
    · next d hd =>
      apply ih
      split at hd
      · exact not_isSmallLetter_composite hd
      · cases hd
    · split
      · exact ⟨starter, List.mem_cons_self, h⟩
      · exact ih h _ _

/-- What is composed to small letters alone is left as it is. -/
theorem composeAfter_eq {starter : Char} {skipped : List Char} {latest : Nat}
    {rest : List Char}
    (h : ∀ c ∈ composeAfter starter skipped latest rest, isSmallLetter c = true) :
  composeAfter starter skipped latest rest = starter :: (skipped.reverse ++ rest)
  := by
  induction rest generalizing starter skipped latest with
  | nil => rw [composeAfter, List.append_nil]
  | cons c rest ih =>
    rw [composeAfter] at h ⊢
    split at h
    · next d hd =>
      have hletter : isSmallLetter d = false := by
        split at hd
        · exact not_isSmallLetter_composite hd
        · cases hd
      obtain ⟨other, hmem, hother⟩ :=
        not_isSmallLetter_composeAfter hletter skipped latest rest
      rw [h other hmem] at hother
      cases hother
    · next hnone =>
      split at h
      · next hclass =>
        rw [if_pos hclass, ih]
        · rfl
        · intro d hd
          exact h d (List.mem_cons_of_mem starter (List.mem_append_right _ hd))
      · next hclass =>
        rw [if_neg hclass, ih h, List.reverse_cons, List.append_assoc]
        rfl

theorem compose_eq {text : List Char} (h : ∀ c ∈ compose text, isSmallLetter c = true) :
  compose text = text
  := by
  induction text with
  | nil => rfl
  | cons c rest ih =>
    rw [compose] at h ⊢
    split at h
    · next hclass => rw [if_pos hclass, composeAfter_eq h, List.reverse_nil, List.nil_append]
    · next hclass =>
      rw [if_neg hclass, ih]
      intro d hd
      exact h d (List.mem_cons_of_mem c hd)

/-! ### Decomposition -/

/-- A syllable begins with a consonant that is no small letter. -/
theorem exists_of_syllableParts {c : Char} {parts : List Char}
    (h : syllableParts? c = some parts) :
  ∃ d ∈ parts, isSmallLetter d = false
  := by
  unfold syllableParts? at h
  dsimp only at h
  split at h
  · next hcode =>
    have hleading : isSmallLetter (Char.ofNat (0x1100 + (c.toNat - 0xAC00) / 588)) = false := by
      apply not_isSmallLetter
      rw [toNat_ofNat (by omega)]
      omega
    split at h
    · obtain rfl := Option.some.inj h
      exact ⟨_, List.mem_cons_self, hleading⟩
    · obtain rfl := Option.some.inj h
      exact ⟨_, List.mem_cons_self, hleading⟩
  · cases h

/-- What decomposes to small letters alone is left as it is. -/
theorem decomposeChar_eq {step? : Char → Option Decomposition}
    (hstep : ∀ c d, step? c = some d → d.sparesLetters = true) {depth : Nat} {c : Char}
    (h : ∀ d ∈ decomposeChar step? depth c, isSmallLetter d = true) :
  decomposeChar step? depth c = [c]
  := by
  induction depth generalizing c with
  | zero => rfl
  | succ depth ih =>
    rw [decomposeChar] at h ⊢
    cases hparts : syllableParts? c with
    | some parts =>
      obtain ⟨d, hd, hletter⟩ := exists_of_syllableParts hparts
      rw [hparts] at h
      rw [h d hd] at hletter
      cases hletter
    | none =>
      cases hentry : step? c with
      | none => rfl
      | some entry =>
        exfalso
        simp only [hparts, hentry, List.mem_append] at h
        have hpart {part : Char}
            (hpart : ∀ d ∈ decomposeChar step? depth part, isSmallLetter d = true) :
            isSmallLetter part = true := by
          apply hpart
          rw [ih hpart]
          exact List.mem_singleton_self part
        have hfirst : isSmallLetter entry.first = true := hpart fun d hd => h d (.inl hd)
        have hsecond : entry.second.all isSmallLetter = true := by
          cases hsecond : entry.second with
          | none => rfl
          | some second =>
            rw [hsecond] at h
            exact hpart fun d hd => h d (.inr hd)
        have hspares := hstep c entry hentry
        rw [Decomposition.sparesLetters, hfirst, hsecond] at hspares
        simp at hspares

/-- A text that decomposes to small letters alone consists of them. -/
theorem isSmallLetter_of_decompose {text : List Char}
    (h : ∀ d ∈ decompose text, isSmallLetter d = true) {c : Char} (hc : c ∈ text) :
  isSmallLetter c = true
  := by
  have hparts : ∀ d ∈ decomposed c, isSmallLetter d = true := by
    intro d hd
    exact h d (mem_decompose.mpr ⟨c, hc, hd⟩)
  apply hparts
  rw [decomposed, decomposeChar_eq _ hparts]
  · exact List.mem_singleton_self c
  · intro other d hd
    exact isOrderly_decompositions.sparesLetters d (decomposition?_eq_some_iff.mp hd).1

/-! ### The normal form -/

/-- A text that is normalized to small letters alone is left as it is. -/
theorem nfcChars_eq {text : List Char} (h : ∀ c ∈ nfcChars text, isSmallLetter c = true) :
  nfcChars text = text
  := by
  rw [nfcChars] at h ⊢
  split at h
  · next hplain => rw [if_pos hplain]
  · next hplain =>
    exfalso
    rw [compose_eq h] at h
    apply hplain
    rw [isPlain, List.all_eq_true]
    intro c hc
    have hletter := isSmallLetter_of_decompose h hc
    simp only [isSmallLetter, decide_eq_true_eq] at hletter ⊢
    omega

/-- A word of small letters is the normal form of itself alone. -/
theorem eq_of_nfc_eq {text word : String} (hword : ∀ c ∈ word.toList, isSmallLetter c = true)
    (h : nfc text = word) :
  text = word
  := by
  subst h
  rw [nfc, String.toList_ofList] at hword
  rw [nfc, nfcChars_eq hword, String.ofList_toList]

end LiveExpr.Text
