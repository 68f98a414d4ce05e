import LiveExpr.Number.Layout

/-!
# Reading numbers by scaling

A reader of binary numbers that keeps to machine arithmetic.  It collects the digits of a
numeral in a word of 64 bits, as far as they fit, rounds the word to a binary number, and
multiplies or divides that by rounded powers of ten.  Rounding more than once, it may miss
the number nearest to the numeral.  Main function: `Numeral.scaled?`.
-/

namespace LiveExpr

namespace Binary64

/-- The rounded product of two finite magnitudes. -/
def mul (x y : Binary64) : Binary64 :=
  ofRatio false (x.ratio.1 * y.ratio.1) (x.ratio.2 * y.ratio.2)

/-- The rounded quotient of two finite magnitudes, the second of which is not zero. -/
def div (x y : Binary64) : Binary64 :=
  ofRatio false (x.ratio.1 * y.ratio.2) (x.ratio.2 * y.ratio.1)

/-- The greatest power of ten that is in range. -/
def maxPower : Nat := 308

/-- A power of ten, rounded. -/
def powerOfTen (k : Nat) : Binary64 :=
  ofDecimal false 1 k

/-- Divides by the greatest power of ten again and again; a zero stays as it is. -/
def divideBlocks : Nat → Binary64 → Binary64
  | 0, x => x
  | n + 1, x => if x.isZero then x else divideBlocks n (x.div (powerOfTen maxPower))

/-- A word of digits times a power of ten, if that is not too great.  A small power of ten
is divided by in steps, since it is out of range itself. -/
def scale? (word : Nat) (exponent : Int) : Option Binary64 :=
  let x := ofRatio false word 1
  if maxPower < exponent then (if word = 0 then some x else none)
  else if 0 ≤ exponent then
    let product := x.mul (powerOfTen exponent.toNat)
    if product.isInfinite then none else some product
  else
    let n := (-exponent).toNat - 1
    some ((divideBlocks (n / maxPower) x).div (powerOfTen (n % maxPower + 1)))

end Binary64

/-- Appends digits to a number while it keeps within 64 bits: the number, and the digits
that are left. -/
def Digit.collect : Nat → List Digit → Nat × List Digit
  | word, [] => (word, [])
  | word, d :: digits =>
    if 10 * word + d.val < UInt64.size then collect (10 * word + d.val) digits
    else (word, d :: digits)

namespace Numeral

/-- The word of the digits of a numeral, and the power of ten of its last digit without an
exponent.  Each digit of the whole part that is left raises the power, and each digit that
is taken from the fraction lowers it. -/
def word (n : Numeral) : Nat × Int :=
  let (word, skipped) := Digit.collect 0 (NumberLayout.digits n.whole)
  let (word, left) := Digit.collect word n.fraction
  (word, skipped.length + left.length - n.fraction.length)

/-- The binary number of a numeral by scaling, if that is not too great.  An exponent beyond
32 bits is not looked at any further. -/
def scaled? (n : Numeral) : Option Binary64 :=
  let (word, exponent) := n.word
  let magnitude := match n.exponent with
    | none => Binary64.scale? word exponent
    | some e =>
      if Int32.maxValue.toInt < e.value.natAbs then
        if word ≠ 0 ∧ ¬ e.negative then none else some (.ofCode false 0)
      else Binary64.scale? word (exponent + e.value)
  magnitude.map fun x => .ofCode n.negative x.code

end Numeral

end LiveExpr
