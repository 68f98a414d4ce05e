import LiveExpr.Number.Layout
import LiveExpr.Text.Decimal
import LiveExpr.Text.Hex
import Mathlib.Tactic.NormNum

/-!
# Numerals read back

The digits of a number state the number, and a numeral reads back from its text when
what follows cannot continue it; hexadecimal digits state their number, too.  Main
statements: `toNat_digits`, `read?_chars` and `ofHexDigits?_hexDigits`.
-/

namespace LiveExpr

/-! ### Digits -/

namespace Digit

/-- Whether a text does not begin with a digit. -/
def Stops (text : List Char) : Prop :=
  ∀ c ∈ text.head?, ofChar? c = none

@[simp]
theorem ofChar?_toChar (d : Digit) :
  ofChar? d.toChar = some d
  := by
  revert d
  decide

/-- The character of a digit is no sign. -/
theorem toChar_ne (d : Digit) :
  d.toChar ≠ '-' ∧ d.toChar ≠ '+'
  := by
  revert d
  decide

theorem span_of_stops {text : List Char} (h : Stops text) :
  span text = ([], text)
  := by
  cases text with
  | nil => rfl
  | cons c rest =>
    have hc : ofChar? c = none := h c rfl
    rw [span, hc]

/-- Reading takes the digits that were written and leaves what follows. -/
theorem span_map_toChar (digits : List Digit) {rest : List Char} (h : Stops rest) :
  span (digits.map toChar ++ rest) = (digits, rest)
  := by
  induction digits with
  | nil => exact span_of_stops h
  | cons d digits ih =>
    rw [List.map_cons, List.cons_append, span, ofChar?_toChar]
    simp only [ih]

theorem toNat_concat (digits : List Digit) (d : Digit) :
  toNat (digits ++ [d]) = 10 * toNat digits + d.val
  := by
  rw [toNat, List.foldl_append]
  rfl

end Digit

namespace NumberLayout

open Digit

/-- A number is written in digits that state it, of which only zero's first is zero. -/
theorem toDigits_eq (n : Nat) :
  ∃ digits : List Digit, Nat.toDigits 10 n = digits.map toChar ∧ toNat digits = n
    ∧ (digits.head? = some zero → n = 0)
  := by
  have htoChar (d : Digit) : Nat.digitChar d.val = d.toChar := by
    revert d
    decide
  induction n using Nat.strongRecOn with
  | ind n ih =>
    rcases Nat.lt_or_ge n 10 with hn | hn
    · use [⟨n, hn⟩]
      constructor
      · rw [Nat.toDigits_of_lt_base hn, List.map_singleton, ← htoChar]
      · use Nat.zero_add n
        intro hzero
        exact congrArg Fin.val (Option.some.inj hzero)
    · obtain ⟨digits, hdigits, hvalue, hhead⟩ := ih (n / 10) (by omega)
      have hlast : n % 10 < 10 := Nat.mod_lt n (by decide)
      use digits ++ [⟨n % 10, hlast⟩]
      constructor
      · rw [Nat.toDigits_of_base_le (by decide) hn, hdigits, List.map_append,
          List.map_singleton, ← htoChar]
      · rw [toNat_concat, hvalue]
        use Nat.div_add_mod n 10
        intro hzero
        rcases digits with _ | ⟨d, ds⟩
        · exact absurd hdigits Nat.toDigits_ne_nil
        · have := hhead hzero
          omega

/-- What the digits of a number are. -/
theorem digits_spec (n : Nat) :
  Nat.toDigits 10 n = (digits n).map toChar ∧ toNat (digits n) = n
    ∧ ((digits n).head? = some zero → n = 0)
  := by
  obtain ⟨ds, hds, hvalue⟩ := toDigits_eq n
  have hspan : span (ds.map toChar ++ []) = (ds, []) := span_map_toChar ds nofun
  rw [List.append_nil, ← hds] at hspan
  rw [digits, hspan]
  exact ⟨hds, hvalue⟩

/-- The digits of a number state it. -/
theorem toNat_digits (n : Nat) :
  toNat (digits n) = n
  := (digits_spec n).2.1

theorem length_digits (n : Nat) :
  (digits n).length = (Nat.toDigits 10 n).length
  := by
  rw [(digits_spec n).1, List.length_map]

theorem digits_ne_nil (n : Nat) :
  digits n ≠ []
  := by
  apply List.ne_nil_of_length_pos
  rw [length_digits]
  apply Nat.length_toDigits_pos

end NumberLayout

/-- A number is written in decimal digits that state it. -/
theorem Text.toDigits_spec (n : Nat) :
  (∀ c ∈ Nat.toDigits 10 n, isDigit c = true) ∧ digitsValue (Nat.toDigits 10 n) = n
    ∧ Nat.toDigits 10 n ≠ []
  := by
  obtain ⟨htext, hvalue, -⟩ := NumberLayout.digits_spec n
  have hdigit : ∀ d : Digit, isDigit d.toChar = true ∧ d.toChar.toNat - 48 = d.val := by decide
  refine ⟨?_, ?_, Nat.toDigits_ne_nil⟩
  · intro c hc
    rw [htext] at hc
    obtain ⟨d, -, rfl⟩ := List.mem_map.mp hc
    exact (hdigit d).1
  · rw [htext, digitsValue, List.foldl_map]
    simp only [(hdigit _).2]
    exact hvalue

/-! ### Numerals -/

namespace Numeral

open Digit NumberLayout

/-- Whether a text cannot continue a numeral. -/
def Ends (text : List Char) : Prop :=
  ∀ c ∈ text.head?, ofChar? c = none ∧ c ≠ '.' ∧ c ≠ 'e' ∧ c ≠ 'E'

theorem Ends.stops {text : List Char} (h : Ends text) :
  Stops text
  := fun c hc => (h c hc).1

/-- A whole part reads back. -/
theorem readWhole?_toDigits (n : Nat) {rest : List Char} (h : Stops rest) :
  readWhole? (Nat.toDigits 10 n ++ rest) = some (n, rest)
  := by
  obtain ⟨htext, hvalue, hhead⟩ := digits_spec n
  rw [readWhole?, htext, span_map_toChar _ h]
  rcases hdigits : digits n with _ | ⟨d, ds⟩
  · exact absurd hdigits (digits_ne_nil n)
  · rw [hdigits] at hvalue hhead
    have hzero : ¬(d = 0 ∧ ds ≠ []) := by
      rintro ⟨rfl, hds⟩
      obtain rfl := hhead rfl
      have hlength := congrArg List.length hdigits
      rw [length_digits] at hlength
      exact hds (List.length_eq_zero_iff.mp (Nat.succ.inj hlength).symm)
    simp only [if_neg hzero, hvalue]

/-! The parts of a numeral's text after the whole part. -/

/-- The text of a fraction, or nothing. -/
def fractionText (fraction : List Digit) : List Char :=
  if fraction.isEmpty then [] else '.' :: fraction.map toChar

/-- The text of an exponent, or nothing. -/
def exponentText (plus : Bool) : Option Exponent → List Char
  | some e => exponentChars plus e
  | none => []

/-- The text of a numeral, part by part. -/
theorem chars_append (plus : Bool) (n : Numeral) (rest : List Char) :
  n.chars plus ++ rest
    = (if n.negative then ['-'] else []) ++ (Nat.toDigits 10 n.whole
      ++ (fractionText n.fraction ++ (exponentText plus n.exponent ++ rest)))
  := by
  obtain ⟨negative, whole, fraction, exponent⟩ := n
  cases exponent <;> simp only [chars, fractionText, exponentText, List.append_assoc]

theorem stops_fractionText (fraction : List Digit) {rest : List Char} (h : Stops rest) :
  Stops (fractionText fraction ++ rest)
  := by
  rcases fraction with _ | ⟨d, ds⟩
  · exact h
  · rintro c ⟨⟩
    rfl

theorem stops_exponentText (plus : Bool) (exponent : Option Exponent) {rest : List Char}
    (h : Ends rest) :
  Stops (exponentText plus exponent ++ rest)
    ∧ ∀ c ∈ (exponentText plus exponent ++ rest).head?, c ≠ '.'
  := by
  rcases exponent with _ | e
  · use h.stops
    intro c hc
    exact (h c hc).2.1
  · constructor
    · rintro c ⟨⟩
      rfl
    · rintro c ⟨⟩
      decide

/-- A fraction reads back when no point follows it. -/
theorem readFraction?_text (fraction : List Digit) {rest : List Char} (h : Stops rest)
    (hpoint : ∀ c ∈ rest.head?, c ≠ '.') :
  readFraction? (fractionText fraction ++ rest) = some (fraction, rest)
  := by
  rcases fraction with _ | ⟨d, ds⟩
  · unfold readFraction?
    split
    · next _ other heq =>
      have hrest : rest = '.' :: other := heq
      rw [hrest] at hpoint
      exact absurd rfl (hpoint '.' rfl)
    · rfl
  · have htext : fractionText (d :: ds) ++ rest = '.' :: ((d :: ds).map toChar ++ rest) := rfl
    rw [htext, readFraction?, span_map_toChar (d :: ds) h]

/-- The digits of an exponent read back. -/
theorem readExponentDigits?_chars (e : Exponent) {rest : List Char} (h : Stops rest) :
  readExponentDigits? e.negative ((e.first :: e.others).map toChar ++ rest)
    = some (some e, rest)
  := by
  rw [readExponentDigits?, span_map_toChar _ h]

/-- An exponent reads back. -/
theorem readExponent?_text (plus : Bool) (exponent : Option Exponent) {rest : List Char}
    (h : Ends rest) :
  readExponent? (exponentText plus exponent ++ rest) = some (exponent, rest)
  := by
  rcases exponent with _ | e
  · rcases rest with _ | ⟨c, rest⟩
    · rfl
    · obtain ⟨-, -, he, hE⟩ := h c rfl
      simp [exponentText, readExponent?, he, hE]
  · have hdigits := readExponentDigits?_chars e h.stops
    obtain ⟨hminus, hplus⟩ := toChar_ne e.first
    obtain ⟨negative, first, others⟩ := e
    rcases negative with _ | _
    · rcases plus with _ | _
      · simp only [exponentText, exponentChars, Bool.false_eq_true, if_false, List.nil_append,
          List.cons_append, List.map_cons, readExponent?, true_or, if_true] at hdigits ⊢
        split
        · next heq => exact absurd (List.cons.inj heq).1 hminus
        · next heq => exact absurd (List.cons.inj heq).1 hplus
        · exact hdigits
      · simpa [exponentText, exponentChars, readExponent?] using hdigits
    · simpa [exponentText, exponentChars, readExponent?] using hdigits

/-- A numeral without sign reads back. -/
theorem readUnsigned?_text (plus negative : Bool) (whole : Nat) (fraction : List Digit)
    (exponent : Option Exponent) {rest : List Char} (h : Ends rest) :
  readUnsigned? negative (Nat.toDigits 10 whole
      ++ (fractionText fraction ++ (exponentText plus exponent ++ rest)))
    = some (⟨negative, whole, fraction, exponent⟩, rest)
  := by
  obtain ⟨hstops, hpoint⟩ := stops_exponentText plus exponent h
  have hwhole := readWhole?_toDigits whole (stops_fractionText fraction hstops)
  have hfraction := readFraction?_text fraction hstops hpoint
  have hexponent := readExponent?_text plus exponent h
  simp only [readUnsigned?, hwhole, hfraction, hexponent, Option.bind_eq_bind,
    Option.bind_some]

/-- A numeral reads back from its text when what follows cannot continue it. -/
theorem read?_chars (plus : Bool) (n : Numeral) {rest : List Char} (h : Ends rest) :
  read? (n.chars plus ++ rest) = some (n, rest)
  := by
  obtain ⟨negative, whole, fraction, exponent⟩ := n
  have hunsigned := readUnsigned?_text plus negative whole fraction exponent h
  rw [chars_append]
  rcases negative with _ | _
  · unfold read?
    split
    · next _ other heq =>
      have hminus : readUnsigned? false ('-' :: other) = none := rfl
      rw [← heq] at hminus
      exact absurd (hunsigned.symm.trans hminus) (Option.some_ne_none _)
    · exact hunsigned
  · exact hunsigned

end Numeral

/-! ### Hexadecimal digits -/

namespace Text

/-- Reading digits after others appends their number. -/
theorem foldlM_hexDigits (width n before : Nat) :
  (hexDigits width n).foldlM (fun n c => (hexValue? c).map (16 * n + ·)) before
    = some (16 ^ width * before + n % 16 ^ width)
  := by
  induction width generalizing n with
  | zero => simp [hexDigits, Nat.mod_one]
  | succ width ih =>
    have hdigit := hexValue?_hexDigit (Nat.mod_lt n (by decide : 16 > 0))
    have hmod : n % 16 ^ (width + 1) = 16 * (n / 16 % 16 ^ width) + n % 16 := by
      rw [Nat.pow_succ', Nat.mod_mul, Nat.add_comm]
    rw [hexDigits, List.foldlM_append, ih, hmod, Nat.pow_succ', Nat.mul_assoc]
    simp [hdigit]
    omega

/-- The lowest digits of a number state what remains of it. -/
theorem ofHexDigits?_hexDigits (width n : Nat) :
  ofHexDigits? (hexDigits width n) = some (n % 16 ^ width)
  := by
  rw [ofHexDigits?, foldlM_hexDigits, Nat.mul_zero, Nat.zero_add]

end Text

end LiveExpr
