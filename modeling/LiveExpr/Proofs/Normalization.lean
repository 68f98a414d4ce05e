import LiveExpr.Proofs.Mappings

/-!
# Idempotence of Normalization Form C

Composing an ordered text of characters that are not decomposed, and decomposing the
composition, gives the text again: a composite decomposes to what was composed, and a mark
that composed past others is put back behind them, because its class is higher than theirs.
Main statement: `nfc_nfc`, a normalized text is its own form.
-/

namespace LiveExpr.Text

/-! ### Canonical order -/

/-- Whether the marks of a text are in canonical order, and those that it begins with have
at least the class `low`. -/
def IsOrderedFrom : Nat → List Char → Prop
  | _, [] => True
  | low, c :: rest =>
    (combiningClass c = 0 ∨ low ≤ combiningClass c) ∧ IsOrderedFrom (combiningClass c) rest

variable {c d : Char} {low : Nat} {text : List Char}

theorem IsOrderedFrom.mono (h : IsOrderedFrom low text) {lower : Nat} (hlow : lower ≤ low) :
  IsOrderedFrom lower text
  := by
  cases text with
  | nil => trivial
  | cons d rest => exact ⟨h.1.imp_right hlow.trans, h.2⟩

theorem mem_insertMark :
  d ∈ insertMark c text ↔ d ∈ c :: text
  := by
  induction text with
  | nil => rfl
  | cons first rest ih =>
    rw [insertMark]
    split
    · rw [List.mem_cons, ih, List.mem_cons, List.mem_cons, List.mem_cons]
      exact or_left_comm
    · rfl

/-- A character is put where its class is in order. -/
theorem isOrderedFrom_insertMark (hc : combiningClass c = 0 ∨ low ≤ combiningClass c)
    (htext : IsOrderedFrom low text) :
  IsOrderedFrom low (insertMark c text)
  := by
  induction text generalizing low with
  | nil => exact ⟨hc, trivial⟩
  | cons d rest ih =>
    obtain ⟨hd, hrest⟩ := htext
    rw [insertMark]
    split
    · next hpast => exact ⟨hd, ih (.inr hpast.2.le) hrest⟩
    · next hpast => exact ⟨hc, by omega, hrest⟩

theorem isOrderedFrom_order (text : List Char) :
  IsOrderedFrom 0 (order text)
  := by
  induction text with
  | nil => trivial
  | cons c rest ih => exact isOrderedFrom_insertMark (.inr (Nat.zero_le _)) ih

theorem mem_order :
  d ∈ order text ↔ d ∈ text
  := by
  induction text with
  | nil => rfl
  | cons c rest ih => rw [order, List.foldr_cons, mem_insertMark, List.mem_cons, ← order, ih,
      List.mem_cons]

/-- A text in canonical order is left as it is. -/
theorem order_eq (h : IsOrderedFrom low text) :
  order text = text
  := by
  induction text generalizing low with
  | nil => rfl
  | cons c rest ih =>
    rw [order, List.foldr_cons, ← order, ih h.2]
    cases rest with
    | nil => rfl
    | cons d rest =>
      have hd := h.2.1
      rw [insertMark, if_neg (by omega)]

theorem order_append (front text : List Char) :
  order (front ++ text) = front.foldr insertMark (order text)
  := by
  rw [order, List.foldr_append, order]

/-- Marks of two classes end up in the same order whichever is put first. -/
theorem insertMark_comm (hd : 0 < combiningClass d) (hdc : combiningClass d < combiningClass c)
    (text : List Char) :
  insertMark c (insertMark d text) = insertMark d (insertMark c text)
  := by
  have hpast := And.intro hd hdc
  have hstop : ¬(0 < combiningClass c ∧ combiningClass c < combiningClass d) := by omega
  induction text with
  | nil => simp only [insertMark, if_pos hpast, if_neg hstop]
  | cons e rest ih =>
    by_cases he : 0 < combiningClass e ∧ combiningClass e < combiningClass d
    · have hec : 0 < combiningClass e ∧ combiningClass e < combiningClass c := by omega
      simp only [insertMark, if_pos he, if_pos hec, ih]
    · by_cases hec : 0 < combiningClass e ∧ combiningClass e < combiningClass c
      · simp only [insertMark, if_neg he, if_pos hec, if_pos hpast]
      · simp only [insertMark, if_neg he, if_neg hec, if_pos hpast, if_neg hstop]

/-- A mark is put behind the marks of lower classes that stand after it. -/
theorem order_mark {marks : List Char}
    (h : ∀ d ∈ marks, 0 < combiningClass d ∧ combiningClass d < combiningClass c) :
  order (c :: (marks ++ text)) = order (marks ++ c :: text)
  := by
  induction marks with
  | nil => rfl
  | cons d rest ih =>
    obtain ⟨hd, hdc⟩ := h d List.mem_cons_self
    calc order (c :: (d :: rest ++ text))
      _ = insertMark c (insertMark d (order (rest ++ text))) := rfl
      _ = insertMark d (order (c :: (rest ++ text))) := insertMark_comm hd hdc _
      _ = order (d :: rest ++ c :: text) := by
        rw [ih fun e he => h e (List.mem_cons_of_mem d he)]
        rfl

/-! ### Decomposition -/

theorem mem_decompose :
  d ∈ decompose text ↔ ∃ c ∈ text, d ∈ decomposed c
  := by
  rw [decompose, mem_order, List.mem_flatMap]

theorem decomposed_of_isAtomic (h : IsAtomic decomposition? c) :
  decomposed c = [c]
  := decomposeChar_of_isAtomic h 4

theorem flatMap_decomposed (h : ∀ c ∈ text, IsAtomic decomposition? c) :
  text.flatMap decomposed = text
  := by
  induction text with
  | nil => rfl
  | cons c rest ih =>
    rw [List.flatMap_cons, ih fun d hd => h d (List.mem_cons_of_mem c hd),
      decomposed_of_isAtomic (h c List.mem_cons_self), List.singleton_append]

/-! ### Composition -/

/-- What is composed after a starter decomposes to the starter's decomposition, the marks
that were skipped and the text that was left. -/
theorem decompose_composeAfter {starter : Char} {skipped rest : List Char} {latest : Nat}
    (hskipped : ∀ c ∈ skipped, IsAtomic decomposition? c
      ∧ 0 < combiningClass c ∧ combiningClass c ≤ latest)
    (hlatest : skipped = [] → latest = 0)
    (hrest : ∀ c ∈ rest, IsAtomic decomposition? c) (hordered : IsOrderedFrom latest rest) :
  decompose (composeAfter starter skipped latest rest)
    = order (decomposed starter ++ (skipped.reverse ++ rest))
  := by
  have hmarks : skipped.reverse.flatMap decomposed = skipped.reverse :=
    flatMap_decomposed fun c hc => (hskipped c (List.mem_reverse.mp hc)).1
  induction rest generalizing starter skipped latest with
  | nil =>
    rw [composeAfter, decompose, List.flatMap_cons, hmarks, List.append_nil]
  | cons c rest ih =>
    obtain ⟨hc, htail⟩ := hordered
    have hatomic : ∀ d ∈ rest, IsAtomic decomposition? d :=
      fun d hd => hrest d (List.mem_cons_of_mem c hd)
    rw [composeAfter]
    split
    · next d hd =>
      split at hd
      · next hnext =>
        rw [Bool.or_eq_true, List.isEmpty_iff, decide_eq_true_eq] at hnext
        have hlow : latest ≤ combiningClass c := by
          obtain hempty | hpast := hnext
          · rw [hlatest hempty]
            exact Nat.zero_le _
          · exact hpast.le
        have hpast : ∀ e ∈ skipped.reverse,
            0 < combiningClass e ∧ combiningClass e < combiningClass c := by
          intro e he
          rw [List.mem_reverse] at he
          obtain rfl | hpast := hnext
          · cases he
          · exact ⟨(hskipped e he).2.1, (hskipped e he).2.2.trans_lt hpast⟩
        rw [ih hskipped hlatest hatomic (htail.mono hlow) hmarks, decomposed_of_composePair? hd,
          List.append_assoc, List.singleton_append, order_append, order_mark hpast,
          ← order_append]
      · cases hd
    · split
      · next hstarter =>
        -- The text after the next starter is composed on its own.
        have hnext := @ih c [] 0 (List.forall_mem_nil _) (fun _ => rfl) hatomic
          (htail.mono (Nat.zero_le _)) rfl
        rw [decomposed_of_isAtomic (hrest c List.mem_cons_self)] at hnext
        rw [decompose, List.flatMap_cons, List.flatMap_append, hmarks, order_append, order_append,
          ← decompose, hnext, ← order_append, ← order_append]
        rfl
      · next hmark =>
        have hc : latest ≤ combiningClass c := hc.resolve_left hmark
        have hreverse : (c :: skipped).reverse ++ rest = skipped.reverse ++ c :: rest := by
          rw [List.reverse_cons, List.append_assoc, List.singleton_append]
        rw [← hreverse]
        have hskipped : ∀ d ∈ c :: skipped, IsAtomic decomposition? d
            ∧ 0 < combiningClass d ∧ combiningClass d ≤ combiningClass c := by
          intro d hd
          obtain rfl | hd := List.mem_cons.mp hd
          · exact ⟨hrest d List.mem_cons_self, Nat.pos_of_ne_zero hmark, le_rfl⟩
          · obtain ⟨hd, hpos, hle⟩ := hskipped d hd
            exact ⟨hd, hpos, hle.trans hc⟩
        apply ih hskipped (fun h => absurd h (List.cons_ne_nil c skipped)) hatomic htail
        exact flatMap_decomposed fun d hd => (hskipped d (List.mem_reverse.mp hd)).1

/-- Composing an ordered text of characters that are not decomposed can be undone. -/
theorem decompose_compose (hatomic : ∀ c ∈ text, IsAtomic decomposition? c)
    (hordered : IsOrderedFrom low text) :
  decompose (compose text) = text
  := by
  induction text generalizing low with
  | nil => rfl
  | cons c rest ih =>
    have hrest : ∀ d ∈ rest, IsAtomic decomposition? d :=
      fun d hd => hatomic d (List.mem_cons_of_mem c hd)
    have hc : decomposed c = [c] := decomposed_of_isAtomic (hatomic c List.mem_cons_self)
    have horder : order (c :: rest) = c :: rest := order_eq hordered
    rw [compose]
    split
    · rw [decompose_composeAfter (List.forall_mem_nil _) (fun _ => rfl) hrest
        (hordered.2.mono (Nat.zero_le _)), hc]
      exact horder
    · calc decompose (c :: compose rest)
        _ = insertMark c (decompose (compose rest)) := by
          rw [decompose, List.flatMap_cons, hc]
          rfl
        _ = insertMark c (order rest) := by rw [ih hrest hordered.2, order_eq hordered.2]
        _ = c :: rest := horder

/-! ### The normal form -/

theorem nfcChars_nfcChars (text : List Char) :
  nfcChars (nfcChars text) = nfcChars text
  := by
  by_cases hplain : isPlain text = true
  · have hform : nfcChars text = text := if_pos hplain
    rw [hform, hform]
  · have hform : nfcChars text = compose (decompose text) := if_neg hplain
    have hagain : decompose (compose (decompose text)) = decompose text := by
      apply decompose_compose _ (isOrderedFrom_order _)
      intro c hc
      obtain ⟨d, -, hc⟩ := mem_decompose.mp hc
      exact isAtomic_of_mem_decomposed hc
    rw [hform, nfcChars, hagain, ite_self]

/-- A normalized text is its own normal form. -/
theorem nfc_nfc (text : String) :
  nfc (nfc text) = nfc text
  := by
  rw [nfc, nfc, String.toList_ofList, nfcChars_nfcChars]

end LiveExpr.Text
