import LiveExpr.Number.Binary64

/-!
# Shortest decimals

The decimal with the fewest digits that reads back as a given binary number, and among
those the nearest to it.  For one digit, two digits and so on, the two neighbours of the
number on the grid of decimals with that many digits are tried.  Main statement:
`ofDecimal_shortest?`, a decimal that the search finds reads back.
-/

namespace LiveExpr

/-- The decimal `coefficient · 10 ^ exponent`. -/
structure Decimal where
  coefficient : Nat
  exponent : Int
deriving DecidableEq, Repr

/-- Which of two equally near decimals is taken. -/
inductive Tie where
  | even
  | up
deriving DecidableEq, Repr

namespace Binary64

/-- The magnitude of a finite number as a fraction. -/
def ratio (x : Binary64) : Nat × Nat :=
  (x.significand <<< x.scale.toNat, 1 <<< (-x.scale).toNat)

/-- Lowers a candidate while `10 ^ e` exceeds the fraction. -/
def lowerLog10 (num den : Nat) : Nat → Int → Int
  | 0, e => e
  | fuel + 1, e =>
    if den * Nat.pow 10 e.toNat ≤ num * Nat.pow 10 (-e).toNat then e
    else lowerLog10 num den fuel (e - 1)

/-- The greatest `e` with `10 ^ e ≤ num / den`, for a positive fraction. -/
def floorLog10 (num den : Nat) : Int :=
  let guess : Int :=
    (Nat.toDigits 10 num).length - (Nat.toDigits 10 den).length + 1
  lowerLog10 num den 3 guess

/-- Whether a decimal reads back as the magnitude of a number. -/
def readsBack (x : Binary64) (d : Decimal) : Bool :=
  ofDecimal x.isNegative d.coefficient d.exponent == x

/-- Of the two neighbours of a fraction on the grid of step `10 ^ exponent`, the nearer
first. -/
def neighbours (tie : Tie) (num den : Nat) (exponent : Int) : List Decimal :=
  let num := num * Nat.pow 10 (-exponent).toNat
  let den := den * Nat.pow 10 exponent.toNat
  let lower := num / den
  let twice := 2 * (num % den)
  let lowerFirst := twice < den
    || twice == den && (match tie with
      | .even => lower % 2 == 0
      | .up => false)
  if lowerFirst then [⟨lower, exponent⟩, ⟨lower + 1, exponent⟩]
  else [⟨lower + 1, exponent⟩, ⟨lower, exponent⟩]

/-- The decimal of `digits` digits that reads back and is the nearest. -/
def withDigits? (tie : Tie) (x : Binary64) (digits : Nat) : Option Decimal :=
  let (num, den) := x.ratio
  (neighbours tie num den (floorLog10 num den - digits + 1)).find? x.readsBack

/-- The first decimal that reads back, with at most 17 digits. -/
def shortest? (tie : Tie) (x : Binary64) : Option Decimal :=
  (List.range 17).findSome? fun i => withDigits? tie x (i + 1)

/-- The decimal that is equal to the magnitude of a finite number. -/
def exactDecimal (x : Binary64) : Decimal :=
  ⟨(x.significand <<< x.scale.toNat) * Nat.pow 5 (-x.scale).toNat, -(-x.scale).toNat⟩

/-- Drops the last digits of a coefficient while they are zeros, at most `fuel`. -/
def dropZeros : Nat → Decimal → Decimal
  | 0, d => d
  | fuel + 1, d =>
    if d.coefficient ≠ 0 ∧ d.coefficient % 10 = 0 then
      dropZeros fuel ⟨d.coefficient / 10, d.exponent + 1⟩
    else d

/-- The shortest decimal of a finite number's magnitude; seventeen digits always
suffice. -/
def shortest (tie : Tie) (x : Binary64) : Decimal :=
  if x.isZero then ⟨0, 0⟩
  else dropZeros 17 ((shortest? tie x).getD x.exactDecimal)

/-- A decimal that the search finds reads back. -/
theorem ofDecimal_shortest? {tie : Tie} {x : Binary64} {d : Decimal}
    (h : shortest? tie x = some d) :
  ofDecimal x.isNegative d.coefficient d.exponent = x
  := by
  obtain ⟨i, -, hi⟩ := List.exists_of_findSome?_eq_some h
  have back := List.find?_some hi
  simpa [readsBack] using back

end Binary64

end LiveExpr
