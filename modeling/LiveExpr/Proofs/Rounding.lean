import LiveExpr.Number.Layout
import LiveExpr.Proofs.Numerals
import Mathlib.Algebra.Order.Field.Power
import Mathlib.Data.Int.Log
import Mathlib.Data.Rat.Floor
import Mathlib.Tactic.NormNum
import Mathlib.Tactic.LinearCombination
import Mathlib.Tactic.Positivity

/-!
# Binary numbers read back

Rounding depends only on the fraction that is rounded and keeps what needs no rounding,
so the decimal of a finite number and every layout of it reads back as that number.
Main statements: `ofDecimal_scale`, `ofDecimal_shortest` and `toBinary64_numeral`.
-/

namespace LiveExpr

namespace Binary64

/-! ### The binary exponent of a fraction -/

/-- A power of two with its exponent parted by sign. -/
theorem zpow_eq_div (e : Int) :
  (2 : ℚ) ^ e = 2 ^ e.toNat / 2 ^ (-e).toNat
  := by
  rw [← zpow_natCast, ← zpow_natCast, ← zpow_sub₀ (by decide)]
  congr 1
  omega

/-- Comparing a fraction with a power of two needs no fractions. -/
theorem shiftLeft_le_iff {num den : Nat} (hden : 0 < den) (e : Int) :
  den <<< e.toNat ≤ num <<< (-e).toNat ↔ (2 : ℚ) ^ e ≤ num / den
  := by
  have hd : (0 : ℚ) < den := by exact_mod_cast hden
  have hp : (0 : ℚ) < 2 ^ (-e).toNat := by positivity
  rw [zpow_eq_div, div_le_div_iff₀ hp hd, Nat.shiftLeft_eq, Nat.shiftLeft_eq]
  rw [mul_comm den]
  exact_mod_cast Iff.rfl

/-- The exponent that the search starts from is at most one too great. -/
theorem log2_bounds {num den : Nat} (hnum : 0 < num) (hden : 0 < den) :
  (2 : ℚ) ^ ((num.log2 : Int) - den.log2 - 1) ≤ num / den
    ∧ (num / den : ℚ) < 2 ^ ((num.log2 : Int) - den.log2 + 1)
  := by
  have hd : (0 : ℚ) < den := by exact_mod_cast hden
  have hnumLower : (2 : ℚ) ^ (num.log2 : Int) ≤ num := by
    exact_mod_cast Nat.log2_self_le hnum.ne'
  have hnumUpper : (num : ℚ) < 2 ^ (num.log2 + 1 : Int) := by
    exact_mod_cast Nat.lt_log2_self
  have hdenLower : (2 : ℚ) ^ (den.log2 : Int) ≤ den := by
    exact_mod_cast Nat.log2_self_le hden.ne'
  have hdenUpper : (den : ℚ) < 2 ^ (den.log2 + 1 : Int) := by
    exact_mod_cast Nat.lt_log2_self
  constructor
  · rw [le_div_iff₀ hd]
    calc (2 : ℚ) ^ ((num.log2 : Int) - den.log2 - 1) * den
        ≤ 2 ^ ((num.log2 : Int) - den.log2 - 1) * 2 ^ (den.log2 + 1 : Int) := by gcongr
      _ = 2 ^ (num.log2 : Int) := by
        rw [← zpow_add₀ (by decide)]
        congr 1
        omega
      _ ≤ num := hnumLower
  · rw [div_lt_iff₀ hd]
    calc (num : ℚ) < 2 ^ (num.log2 + 1 : Int) := hnumUpper
      _ = 2 ^ ((num.log2 : Int) - den.log2 + 1) * 2 ^ (den.log2 : Int) := by
        rw [← zpow_add₀ (by decide)]
        congr 1
        omega
      _ ≤ 2 ^ ((num.log2 : Int) - den.log2 + 1) * den := by gcongr

theorem log_eq_of_bounds {q : ℚ} (hq : 0 < q) {e : Int} (hle : (2 : ℚ) ^ e ≤ q)
    (hlt : q < 2 ^ (e + 1)) :
  Int.log 2 q = e
  := by
  have h1 := (Int.zpow_le_iff_le_log (b := 2) (by decide) hq).mp (by exact_mod_cast hle)
  have h2 := (Int.lt_zpow_iff_log_lt (b := 2) (by decide) hq).mp (by exact_mod_cast hlt)
  omega

/-- The binary exponent of a fraction is its logarithm. -/
theorem floorLog2_eq {num den : Nat} (hnum : 0 < num) (hden : 0 < den) :
  floorLog2 num den = Int.log 2 (num / den : ℚ)
  := by
  have hq : (0 : ℚ) < num / den := by positivity
  obtain ⟨hlower, hupper⟩ := log2_bounds hnum hden
  symm
  unfold floorLog2
  dsimp only
  split
  · next h => exact log_eq_of_bounds hq ((shiftLeft_le_iff hden _).mp h) hupper
  · next h =>
    apply log_eq_of_bounds hq hlower
    rw [sub_add_cancel]
    exact not_le.mp fun hle => h ((shiftLeft_le_iff hden _).mpr hle)

/-! ### Scaling -/

theorem nearest_mul_left {k : Nat} (hk : 0 < k) (num den : Nat) :
  nearest (k * num) (k * den) = nearest num den
  := by
  have hlt (a b : Nat) : k * a < k * b ↔ a < b := Nat.mul_lt_mul_left hk
  have htwice : 2 * (k * (num % den)) = k * (2 * (num % den)) := Nat.mul_left_comm ..
  simp only [nearest, Nat.mul_div_mul_left _ _ hk, Nat.mul_mod_mul_left, htwice, hlt]

theorem floorLog2_mul_left {k num den : Nat} (hk : 0 < k) (hnum : 0 < num) (hden : 0 < den) :
  floorLog2 (k * num) (k * den) = floorLog2 num den
  := by
  have hk' : (k : ℚ) ≠ 0 := by exact_mod_cast hk.ne'
  rw [floorLog2_eq (by positivity) (by positivity), floorLog2_eq hnum hden]
  push_cast
  rw [mul_div_mul_left _ _ hk']

theorem codeOfRatio_mul_left {k num den : Nat} (hk : 0 < k) (hnum : 0 < num)
    (hden : 0 < den) :
  codeOfRatio (k * num) (k * den) = codeOfRatio num den
  := by
  have hshift (n m : Nat) : (k * n) <<< m = k * n <<< m := by
    rw [Nat.shiftLeft_eq, Nat.shiftLeft_eq, Nat.mul_assoc]
  simp only [codeOfRatio, floorLog2_mul_left hk hnum hden, hshift, nearest_mul_left hk]

/-- Equal fractions are rounded alike. -/
theorem ofRatio_congr (negative : Bool) {num den num' den' : Nat} (hden : 0 < den)
    (hden' : 0 < den') (h : num * den' = num' * den) :
  ofRatio negative num den = ofRatio negative num' den'
  := by
  rcases Nat.eq_zero_or_pos num with rfl | hnum
  · have hnum' : num' = 0 := by
      rw [Nat.zero_mul] at h
      exact (Nat.mul_eq_zero.mp h.symm).resolve_right hden.ne'
    rw [ofRatio, ofRatio, if_pos rfl, if_pos hnum']
  · have hnum' : 0 < num' := by
      apply Nat.pos_of_mul_pos_right (a := num') (b := den)
      rw [← h]
      exact Nat.mul_pos hnum hden'
    have hcode : codeOfRatio num den = codeOfRatio num' den' := by
      rw [← codeOfRatio_mul_left hden' hnum hden, ← codeOfRatio_mul_left hden hnum' hden',
        Nat.mul_comm den' num, h, Nat.mul_comm num' den, Nat.mul_comm den' den]
    rw [ofRatio, ofRatio, if_neg hnum.ne', if_neg hnum'.ne', hcode]

/-- A zero at the end of a coefficient lengthens its digits by one. -/
theorem length_toDigits_ten_mul {n : Nat} (h : n ≠ 0) :
  (Nat.toDigits 10 (10 * n)).length = (Nat.toDigits 10 n).length + 1
  := by
  rw [Nat.toDigits_of_base_le (by decide) (by omega), List.length_append,
    Nat.mul_div_cancel_left n (by decide), List.length_singleton]

/-- Zeros at the end of a coefficient move the exponent. -/
theorem ofDecimal_ten_mul (negative : Bool) (coefficient : Nat) (exponent : Int) :
  ofDecimal negative (10 * coefficient) (exponent - 1)
    = ofDecimal negative coefficient exponent
  := by
  rcases Nat.eq_zero_or_pos coefficient with rfl | hpos
  · simp [ofDecimal]
  · have hsize : exponent - 1 + (Nat.toDigits 10 (10 * coefficient)).length
        = exponent + (Nat.toDigits 10 coefficient).length := by
      rw [length_toDigits_ten_mul hpos.ne']
      omega
    have hratio : ofRatio negative (10 * coefficient * 10 ^ (exponent - 1).toNat)
          (10 ^ (-(exponent - 1)).toNat)
        = ofRatio negative (coefficient * 10 ^ exponent.toNat) (10 ^ (-exponent).toNat) := by
      apply ofRatio_congr negative (by positivity) (by positivity)
      have hpow : 10 * 10 ^ (exponent - 1).toNat * 10 ^ (-exponent).toNat
          = 10 ^ exponent.toNat * 10 ^ (-(exponent - 1)).toNat := by
        rw [← pow_succ', ← pow_add, ← pow_add]
        congr 1
        omega
      linear_combination coefficient * hpow
    simp only [ofDecimal, hsize, Nat.pow_eq, hratio]
    have hne : 10 * coefficient ≠ 0 := by omega
    rw [if_neg hne, if_neg hpos.ne']

/-- Powers of ten pass between the coefficient and the exponent. -/
theorem ofDecimal_scale (negative : Bool) (coefficient : Nat) (exponent : Int) (k : Nat) :
  ofDecimal negative (coefficient * 10 ^ k) (exponent - k)
    = ofDecimal negative coefficient exponent
  := by
  induction k with
  | zero => simp
  | succ k ih =>
    have hcoefficient : coefficient * 10 ^ (k + 1) = 10 * (coefficient * 10 ^ k) := by
      ring
    have hexponent : exponent - (k + 1 : Nat) = exponent - k - 1 := by omega
    rw [hcoefficient, hexponent, ofDecimal_ten_mul, ih]

/-- Dropping zeros keeps the number. -/
theorem ofDecimal_dropZeros (negative : Bool) (fuel : Nat) (d : Decimal) :
  ofDecimal negative (dropZeros fuel d).coefficient (dropZeros fuel d).exponent
    = ofDecimal negative d.coefficient d.exponent
  := by
  induction fuel generalizing d with
  | zero => rfl
  | succ fuel ih =>
    rw [dropZeros]
    split
    · next h =>
      rw [ih, ← ofDecimal_ten_mul]
      congr 1
      · exact Nat.mul_div_cancel' (Nat.dvd_of_mod_eq_zero h.2)
      · exact Int.add_sub_cancel d.exponent 1
    · rfl

/-! ### What needs no rounding -/

theorem hiddenBit_eq :
  hiddenBit = 2 ^ 52
  := rfl

/-- A number is that of its sign and its code. -/
theorem ofCode_code (x : Binary64) :
  ofCode x.isNegative x.code = x
  := by
  have hbits : x.bits.toNat < 2 ^ 64 := x.bits.toNat_lt
  have hsign : signBit = 2 ^ 63 := rfl
  have hsum : (if x.isNegative then signBit + x.code else x.code) = x.bits.toNat := by
    by_cases h : signBit ≤ x.bits.toNat
    · simp only [isNegative, code, h, decide_true, if_true]
      rw [hsign] at h ⊢
      omega
    · simp only [isNegative, code, h, decide_false, Bool.false_eq_true, if_false]
      rw [hsign] at h ⊢
      omega
  rw [ofCode, hsum, UInt64.ofNat_toNat]

/-- The parts of a finite number and their ranges. -/
theorem parts_spec {x : Binary64} (h : x.isFinite = true) :
  (x.scale + 1074).toNat * hiddenBit + x.significand = x.code
    ∧ x.significand < 2 ^ 53 ∧ (2 ^ 52 ≤ x.significand ∨ x.scale = -1074)
    ∧ -1074 ≤ x.scale ∧ x.scale ≤ 971
  := by
  have hfinite : x.code < infinityCode := of_decide_eq_true h
  rw [infinityCode, hiddenBit_eq] at hfinite
  by_cases hcode : x.code < hiddenBit
  · simp only [scale, significand, hcode, if_true]
    rw [hiddenBit_eq] at hcode ⊢
    exact ⟨by simp, by omega, .inr trivial, by decide, by decide⟩
  · simp only [scale, significand, hcode, if_false]
    rw [hiddenBit_eq] at hcode ⊢
    omega

/-- Of the finite numbers only the zeros have the significand zero. -/
theorem code_of_significand {x : Binary64} (h : x.isFinite = true) (hx : x.significand = 0) :
  x.code = 0
  := by
  obtain ⟨hcode, -, hlower, -⟩ := parts_spec h
  have hscale : x.scale = -1074 := hlower.resolve_left (by omega)
  rw [← hcode, hx, hscale]
  rfl

/-- The fraction of a finite number is its significand times a power of two. -/
theorem ratio_eq (x : Binary64) :
  (x.ratio.1 / x.ratio.2 : ℚ) = x.significand * 2 ^ x.scale
  := by
  rw [zpow_eq_div, ratio, Nat.shiftLeft_eq, Nat.shiftLeft_eq]
  push_cast
  ring

theorem ratio_pos {x : Binary64} (h : 0 < x.significand) :
  0 < x.ratio.1 ∧ 0 < x.ratio.2
  := by
  rw [ratio, Nat.shiftLeft_eq, Nat.shiftLeft_eq]
  constructor
  · positivity
  · positivity

/-- The binary exponent of a finite number's fraction leads to its scale. -/
theorem max_floorLog2_ratio {x : Binary64} (h : x.isFinite = true)
    (hpos : 0 < x.significand) :
  max (floorLog2 x.ratio.1 x.ratio.2 - 52) (-1074) = x.scale
  := by
  obtain ⟨-, hupper, hlower, hscale, -⟩ := parts_spec h
  obtain ⟨hnum, hden⟩ := ratio_pos hpos
  have hq : (0 : ℚ) < x.ratio.1 / x.ratio.2 := by positivity
  have hlt : (x.ratio.1 / x.ratio.2 : ℚ) < 2 ^ (x.scale + 53) := by
    rw [ratio_eq, add_comm, zpow_add₀ (by decide)]
    gcongr
    exact_mod_cast hupper
  have hlog := (Int.lt_zpow_iff_log_lt (b := 2) (by decide) hq).mp (by exact_mod_cast hlt)
  rw [floorLog2_eq hnum hden]
  rcases hlower with hlower | hlower
  · have hle : (2 : ℚ) ^ (x.scale + 52) ≤ x.ratio.1 / x.ratio.2 := by
      rw [ratio_eq, add_comm, zpow_add₀ (by decide)]
      gcongr
      exact_mod_cast hlower
    have := (Int.zpow_le_iff_le_log (b := 2) (by decide) hq).mp (by exact_mod_cast hle)
    omega
  · omega

/-- A whole number needs no rounding. -/
theorem nearest_mul_self (n : Nat) {den : Nat} (h : 0 < den) :
  nearest (n * den) den = n
  := by
  simp [nearest, Nat.mul_div_cancel _ h, h]

/-- The fraction of a finite number is rounded to that number. -/
theorem ofRatio_ratio {x : Binary64} (h : x.isFinite = true) :
  ofRatio x.isNegative x.ratio.1 x.ratio.2 = x
  := by
  have hfinite : x.code < infinityCode := of_decide_eq_true h
  rcases Nat.eq_zero_or_pos x.significand with hzero | hpos
  · have hnum : x.ratio.1 = 0 := by rw [ratio, hzero, Nat.zero_shiftLeft]
    rw [ofRatio, if_pos hnum, ← code_of_significand h hzero, ofCode_code]
  · obtain ⟨hnum, hden⟩ := ratio_pos hpos
    have hround : nearest (x.ratio.1 <<< (-x.scale).toNat) (x.ratio.2 <<< x.scale.toNat)
        = x.significand := by
      have hmul : x.ratio.1 <<< (-x.scale).toNat
          = x.significand * (x.ratio.2 <<< x.scale.toNat) := by
        simp only [ratio, Nat.shiftLeft_eq]
        ring
      rw [hmul]
      apply nearest_mul_self
      rw [Nat.shiftLeft_eq]
      positivity
    rw [ofRatio, if_neg hnum.ne', codeOfRatio, max_floorLog2_ratio h hpos, hround,
      (parts_spec h).1, min_eq_left hfinite.le, ofCode_code]

/-! ### Decimals -/

/-- A decimal of moderate size is rounded as a fraction. -/
theorem ofDecimal_of_size (negative : Bool) {coefficient : Nat} {exponent : Int}
    (hupper : exponent + (Nat.toDigits 10 coefficient).length ≤ 310)
    (hlower : -330 ≤ exponent + (Nat.toDigits 10 coefficient).length) :
  ofDecimal negative coefficient exponent
    = ofRatio negative (coefficient * 10 ^ exponent.toNat) (10 ^ (-exponent).toNat)
  := by
  rcases Nat.eq_zero_or_pos coefficient with rfl | hpos
  · simp [ofDecimal, ofRatio]
  · simp only [ofDecimal, Nat.pow_eq]
    rw [if_neg hpos.ne', if_neg (not_lt.mpr hupper), if_neg (not_lt.mpr hlower)]

/-- The greatest finite number has fewer than 310 digits. -/
theorem two_pow_le_ten_pow :
  2 ^ 53 * 2 ^ 971 ≤ 10 ^ 310
  := by decide +kernel

/-- The least positive number has its first digit after fewer than 331 zeros. -/
theorem ten_pow_le_five_pow {k : Nat} (h : k ≤ 743) :
  10 ^ k ≤ 5 ^ (331 + k)
  := by
  have hpowers : 2 ^ k ≤ 5 ^ 331 :=
    (Nat.pow_le_pow_right (by decide) h).trans (by decide +kernel)
  calc 10 ^ k = 2 ^ k * 5 ^ k := Nat.mul_pow 2 5 k
    _ ≤ 5 ^ 331 * 5 ^ k := Nat.mul_le_mul_right _ hpowers
    _ = 5 ^ (331 + k) := (pow_add ..).symm

/-- The exact decimal of a finite number is of moderate size. -/
theorem exactDecimal_size {x : Binary64} (h : x.isFinite = true) (hpos : 0 < x.significand) :
  x.exactDecimal.exponent + (Nat.toDigits 10 x.exactDecimal.coefficient).length ≤ 310
    ∧ -330 ≤ x.exactDecimal.exponent + (Nat.toDigits 10 x.exactDecimal.coefficient).length
  := by
  obtain ⟨-, hsignificand, -, hlow, hhigh⟩ := parts_spec h
  have hcoefficient : x.exactDecimal.coefficient
      = x.significand * 2 ^ x.scale.toNat * 5 ^ (-x.scale).toNat := by
    rw [exactDecimal, Nat.shiftLeft_eq, Nat.pow_eq]
  have hexponent : x.exactDecimal.exponent = -(-x.scale).toNat := rfl
  have hplaces : (-x.scale).toNat ≤ 1074 := by omega
  have hscale : x.scale.toNat ≤ 971 := by omega
  rw [hexponent]
  generalize (-x.scale).toNat = places at hcoefficient hplaces ⊢
  generalize x.scale.toNat = shift at hcoefficient hscale
  constructor
  · have hlt : x.exactDecimal.coefficient < 10 ^ (310 + places) := by
      calc x.exactDecimal.coefficient = x.significand * 2 ^ shift * 5 ^ places := hcoefficient
        _ ≤ x.significand * 2 ^ 971 * 10 ^ places := by gcongr <;> decide
        _ < 2 ^ 53 * 2 ^ 971 * 10 ^ places := by gcongr
        _ ≤ 10 ^ 310 * 10 ^ places := Nat.mul_le_mul_right _ two_pow_le_ten_pow
        _ = 10 ^ (310 + places) := (pow_add ..).symm
    have := (Nat.length_toDigits_le_iff (by decide) (by omega)).mpr hlt
    omega
  · by_contra hsize
    have hdigits := Nat.length_toDigits_pos (b := 10) (n := x.exactDecimal.coefficient)
    obtain ⟨k, hk⟩ := Nat.exists_eq_add_of_le (show 331 ≤ places by omega)
    have hlt := (Nat.length_toDigits_le_iff (k := k) (by decide) (by omega)).mp
      (show (Nat.toDigits 10 x.exactDecimal.coefficient).length ≤ k by omega)
    have hle : 10 ^ k ≤ x.exactDecimal.coefficient := by
      calc 10 ^ k ≤ 5 ^ (331 + k) := ten_pow_le_five_pow (by omega)
        _ = 1 * 1 * 5 ^ places := by rw [hk, Nat.one_mul]
        _ ≤ x.significand * 2 ^ shift * 5 ^ places := by
          gcongr
          · exact hpos
          · exact Nat.one_le_two_pow
        _ = x.exactDecimal.coefficient := hcoefficient.symm
    omega

/-- The exact decimal of a finite number reads back. -/
theorem ofDecimal_exactDecimal {x : Binary64} (h : x.isFinite = true)
    (hpos : 0 < x.significand) :
  ofDecimal x.isNegative x.exactDecimal.coefficient x.exactDecimal.exponent = x
  := by
  obtain ⟨hupper, hlower⟩ := exactDecimal_size h hpos
  rw [ofDecimal_of_size x.isNegative hupper hlower]
  refine Eq.trans (ofRatio_congr x.isNegative (by positivity) (ratio_pos hpos).2 ?_)
    (ofRatio_ratio h)
  have hpow : (10 : Nat) ^ (-x.scale).toNat = 5 ^ (-x.scale).toNat * 2 ^ (-x.scale).toNat := by
    rw [← Nat.mul_pow]
  simp only [exactDecimal, ratio, Nat.shiftLeft_eq, Nat.pow_eq, neg_neg, Int.toNat_natCast,
    Int.toNat_neg_natCast, hpow]
  ring

/-- The shortest decimal of a finite number reads back. -/
theorem ofDecimal_shortest (tie : Tie) {x : Binary64} (h : x.isFinite = true) :
  ofDecimal x.isNegative (x.shortest tie).coefficient (x.shortest tie).exponent = x
  := by
  unfold shortest
  split
  · next hzero =>
    have hcode : x.code = 0 := of_decide_eq_true hzero
    rw [ofDecimal, if_pos rfl, ← hcode, ofCode_code]
  · next hzero =>
    rw [ofDecimal_dropZeros]
    rcases hfound : shortest? tie x with _ | d
    · apply ofDecimal_exactDecimal h
      apply Nat.pos_of_ne_zero
      intro hsignificand
      exact hzero (decide_eq_true (code_of_significand h hsignificand))
    · exact ofDecimal_shortest? hfound

/-! ### What rounding gives -/

theorem code_ofCode (negative : Bool) {code : Nat} (h : code < signBit) :
  (ofCode negative code).code = code
  := by
  have hsign : signBit = 2 ^ 63 := rfl
  rw [hsign] at h
  rw [Binary64.code, ofCode, hsign, UInt64.toNat_ofNat']
  split <;> omega

/-- A code up to that of the infinities is that of a finite number or of an infinity. -/
theorem ofCode_cases (negative : Bool) {code : Nat} (h : code ≤ infinityCode) :
  (ofCode negative code).isFinite = true ∨ ofCode negative code = infinity negative
  := by
  obtain hlt | rfl := Nat.lt_or_eq_of_le h
  · left
    have hsign : code < signBit := Nat.lt_trans hlt (by decide)
    rw [isFinite, code_ofCode negative hsign]
    exact decide_eq_true hlt
  · exact .inr rfl

/-- The number nearest to a decimal is finite or an infinity. -/
theorem ofDecimal_cases (negative : Bool) (coefficient : Nat) (exponent : Int) :
  (ofDecimal negative coefficient exponent).isFinite = true
    ∨ ofDecimal negative coefficient exponent = infinity negative
  := by
  have hzero := ofCode_cases negative (Nat.zero_le infinityCode)
  rw [ofDecimal]
  split
  · exact hzero
  · split
    · exact .inr rfl
    · split
      · exact hzero
      · rw [ofRatio]
        split
        · exact hzero
        · exact ofCode_cases negative (Nat.min_le_right _ infinityCode)

end Binary64

/-! ### Layouts -/

namespace Digit

/-- The number of digits after others. -/
theorem foldl_eq (digits : List Digit) (n : Nat) :
  digits.foldl (fun m d => 10 * m + d.val) n = n * 10 ^ digits.length + toNat digits
  := by
  induction digits generalizing n with
  | nil => simp [toNat]
  | cons d digits ih =>
    rw [toNat, List.foldl_cons, List.foldl_cons, ih, ih (10 * 0 + d.val), List.length_cons]
    ring

theorem toNat_replicate_append (k : Nat) (digits : List Digit) :
  toNat (List.replicate k zero ++ digits) = toNat digits
  := by
  induction k with
  | zero => rfl
  | succ k ih => rw [List.replicate_succ, List.cons_append, ← ih]; rfl

end Digit

namespace NumberLayout

open Digit

/-- The positional numeral of a decimal without places after the point. -/
theorem positional_of_nonneg (negative : Bool) {d : Decimal} (h : 0 ≤ d.exponent) :
  positional negative d
    = ⟨negative, d.coefficient * 10 ^ d.exponent.toNat, [zero], none⟩
  := by
  rw [positional, if_pos h, Nat.pow_eq]

/-- The positional numeral of a decimal with places after the point has as many digits
there, and they state the rest of the coefficient. -/
theorem positional_of_neg (negative : Bool) {d : Decimal} (h : d.exponent < 0) :
  ∃ fraction : List Digit, fraction.length = (-d.exponent).toNat
    ∧ toNat fraction = d.coefficient % 10 ^ (-d.exponent).toNat
    ∧ positional negative d
      = ⟨negative, d.coefficient / 10 ^ (-d.exponent).toNat, fraction, none⟩
  := by
  have hmod : d.coefficient % 10 ^ (-d.exponent).toNat < 10 ^ (-d.exponent).toNat :=
    Nat.mod_lt _ (by positivity)
  have hlength : (digits (d.coefficient % 10 ^ (-d.exponent).toNat)).length
      ≤ (-d.exponent).toNat := by
    rw [length_digits]
    exact (Nat.length_toDigits_le_iff (by decide) (by omega)).mpr hmod
  rw [positional, if_neg (by omega)]
  simp only [Nat.pow_eq]
  refine ⟨_, ?_, ?_, rfl⟩
  · rw [List.length_append, List.length_replicate, Nat.sub_add_cancel hlength]
  · rw [toNat_replicate_append, toNat_digits]

/-- The scientific numeral of a decimal has the digits of its coefficient and states the
magnitude. -/
theorem scientific_eq (negative : Bool) (d : Decimal) (magnitude : Int) :
  ∃ (first : Digit) (fraction : List Digit) (e : Exponent),
    digits d.coefficient = first :: fraction ∧ e.value = magnitude
      ∧ scientific negative d magnitude = ⟨negative, first.val, fraction, some e⟩
  := by
  have hvalue := toNat_digits magnitude.natAbs
  rcases hdigits : digits d.coefficient with _ | ⟨first, fraction⟩
  · exact absurd hdigits (digits_ne_nil _)
  · rcases hmagnitude : digits magnitude.natAbs with _ | ⟨e, others⟩
    · exact absurd hmagnitude (digits_ne_nil _)
    · refine ⟨first, fraction, ⟨magnitude < 0, e, others⟩, rfl, ?_, ?_⟩
      · rw [hmagnitude] at hvalue
        simp only [Exponent.value, hvalue, decide_eq_true_eq]
        split <;> omega
      · rw [scientific, hdigits]
        dsimp only
        rw [hmagnitude]

/-- The positional numeral of a decimal denotes the number nearest to the decimal. -/
theorem toBinary64_positional (negative : Bool) (d : Decimal) :
  (positional negative d).toBinary64
    = .ofDecimal negative d.coefficient d.exponent
  := by
  rcases lt_or_ge d.exponent 0 with h | h
  · obtain ⟨fraction, hlength, hvalue, hpositional⟩ := positional_of_neg negative h
    have hexponent : (0 : Int) - (-d.exponent).toNat = d.exponent := by omega
    rw [hpositional]
    simp only [Numeral.toBinary64, foldl_eq, hlength, hvalue, Nat.div_add_mod',
      Option.map_none, Option.getD_none, hexponent]
  · rw [positional_of_nonneg negative h,
      ← Binary64.ofDecimal_scale negative d.coefficient d.exponent (d.exponent.toNat + 1)]
    have hexponent : d.exponent - (d.exponent.toNat + 1 : Nat) = 0 - 1 := by omega
    have hcoefficient : 10 * (d.coefficient * 10 ^ d.exponent.toNat) + zero.val
        = d.coefficient * 10 ^ (d.exponent.toNat + 1) := by
      rw [pow_succ, zero]
      ring
    simp only [Numeral.toBinary64, List.foldl_cons, List.foldl_nil, hcoefficient,
      Option.map_none, Option.getD_none, hexponent, List.length_singleton, Nat.cast_one]

/-- The scientific numeral of a decimal denotes the number nearest to the decimal. -/
theorem toBinary64_scientific (negative : Bool) (d : Decimal) :
  (scientific negative d (d.exponent + (digits d.coefficient).length - 1)).toBinary64
    = .ofDecimal negative d.coefficient d.exponent
  := by
  obtain ⟨first, fraction, e, hdigits, hvalue, hscientific⟩ := scientific_eq negative d
    (d.exponent + (digits d.coefficient).length - 1)
  have hcoefficient := toNat_digits d.coefficient
  rw [hdigits] at hcoefficient hvalue
  have hfold : fraction.foldl (fun m d => 10 * m + d.val) first.val = d.coefficient := by
    rw [← hcoefficient, Digit.toNat, List.foldl_cons, Nat.mul_zero, Nat.zero_add]
  have hexponent : e.value - fraction.length = d.exponent := by
    rw [hvalue, List.length_cons]
    omega
  rw [hscientific]
  simp only [Numeral.toBinary64, hfold, Option.map_some, Option.getD_some, hexponent]

/-- Every layout of a finite number denotes that number. -/
theorem toBinary64_numeral (layout : NumberLayout) {x : Binary64} (h : x.isFinite = true) :
  (layout.numeral x).toBinary64 = x
  := by
  have hback := Binary64.ofDecimal_shortest layout.tie h
  unfold numeral
  dsimp only
  split
  · next hzero =>
    rw [hzero, Binary64.ofDecimal, if_pos rfl] at hback
    rw [Numeral.toBinary64]
    simpa [Binary64.ofDecimal, zero] using hback
  · split
    · rw [toBinary64_positional, hback]
    · rw [toBinary64_scientific, hback]

/-- No layout of a number reads as an integer. -/
theorem isInteger_numeral (layout : NumberLayout) (x : Binary64) :
  (layout.numeral x).isInteger = false
  := by
  unfold numeral
  dsimp only
  split
  · rfl
  · split
    · rcases lt_or_ge (x.shortest layout.tie).exponent 0 with h | h
      · obtain ⟨fraction, hlength, -, hpositional⟩ := positional_of_neg x.isNegative h
        have hfraction : fraction ≠ [] := by
          rintro rfl
          rw [List.length_nil] at hlength
          omega
        rw [hpositional]
        simp [Numeral.isInteger, hfraction]
      · rw [positional_of_nonneg x.isNegative h]
        rfl
    · obtain ⟨_, _, _, -, -, hscientific⟩ := scientific_eq x.isNegative
        (x.shortest layout.tie) _
      rw [hscientific]
      exact Bool.and_false _

end NumberLayout

end LiveExpr
