/-!
# Binary floating-point numbers

Numbers of the 64-bit binary format, held by their bits: their parts, their equality,
and the number nearest to a fraction or to a decimal.  All arithmetic is exact
arithmetic on natural numbers.
-/

namespace LiveExpr

/-- A number of the 64-bit binary format, by its bits: a sign, eleven bits of exponent
and 52 bits of fraction. -/
structure Binary64 where
  bits : UInt64
deriving DecidableEq, Repr

namespace Binary64

/-! ### Parts -/

/-- The bit of the sign. -/
def signBit : Nat := 1 <<< 63

/-- The leading bit of a significand, which the bits of a number leave out: it stands
where their exponent begins. -/
def hiddenBit : Nat := 1 <<< 52

/-- Whether the sign bit is set. -/
def isNegative (x : Binary64) : Bool :=
  signBit ≤ x.bits.toNat

/-- The bits without the sign. -/
def code (x : Binary64) : Nat :=
  x.bits.toNat % signBit

/-- The code of the infinities; greater codes are no numbers. -/
def infinityCode : Nat := 2047 * hiddenBit

def isNaN (x : Binary64) : Bool :=
  infinityCode < x.code

def isInfinite (x : Binary64) : Bool :=
  x.code = infinityCode

def isFinite (x : Binary64) : Bool :=
  x.code < infinityCode

def isZero (x : Binary64) : Bool :=
  x.code = 0

/-- The number of a sign and a code. -/
def ofCode (negative : Bool) (code : Nat) : Binary64 :=
  ⟨UInt64.ofNat (if negative then signBit + code else code)⟩

/-- The number that stands for no number. -/
def nan : Binary64 := ofCode false (infinityCode + hiddenBit / 2)

/-- The infinity of a sign. -/
def infinity (negative : Bool) : Binary64 := ofCode negative infinityCode

/-- The significand of a finite number: its magnitude is `significand · 2 ^ scale`. -/
def significand (x : Binary64) : Nat :=
  if x.code < hiddenBit then x.code else hiddenBit + x.code % hiddenBit

/-- The binary exponent of the last place of a finite number. -/
def scale (x : Binary64) : Int :=
  if x.code < hiddenBit then -1074 else (x.code / hiddenBit : Nat) - 1075

/-- Equality of numbers: the two zeros are equal, and what is no number equals nothing. -/
def sameNumber (x y : Binary64) : Bool :=
  !x.isNaN && !y.isNaN && (x == y || x.isZero && y.isZero)

/-! ### Rounding -/

/-- The integer nearest to a fraction; of two equally near the even one. -/
def nearest (num den : Nat) : Nat :=
  let quotient := num / den
  let twice := 2 * (num % den)
  if twice < den then quotient
  else if den < twice then quotient + 1
  else if quotient % 2 = 0 then quotient
  else quotient + 1

/-- The greatest `e` with `2 ^ e ≤ num / den`, for a positive fraction. -/
def floorLog2 (num den : Nat) : Int :=
  let guess : Int := Nat.log2 num - Nat.log2 den
  if den <<< guess.toNat ≤ num <<< (-guess).toNat then guess else guess - 1

/-- The code of the number nearest to a positive fraction. -/
def codeOfRatio (num den : Nat) : Nat :=
  let scale := max (floorLog2 num den - 52) (-1074)
  let significand := nearest (num <<< (-scale).toNat) (den <<< scale.toNat)
  min ((scale + 1074).toNat * hiddenBit + significand) infinityCode

/-- The number nearest to a fraction of the given sign; of two equally near the one with
an even significand, and an infinity beyond the greatest number. -/
def ofRatio (negative : Bool) (num den : Nat) : Binary64 :=
  if num = 0 then ofCode negative 0 else ofCode negative (codeOfRatio num den)

/-- The number nearest to `coefficient · 10 ^ exponent`.  A decimal that is far outside
the range of the format is decided by its size alone. -/
def ofDecimal (negative : Bool) (coefficient : Nat) (exponent : Int) : Binary64 :=
  let size := exponent + (Nat.toDigits 10 coefficient).length
  if coefficient = 0 then ofCode negative 0
  else if 310 < size then infinity negative
  else if size < -330 then ofCode negative 0
  else
    ofRatio negative (coefficient * Nat.pow 10 exponent.toNat)
      (Nat.pow 10 (-exponent).toNat)

end Binary64

end LiveExpr
