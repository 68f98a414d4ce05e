/-!
# Decimal text

Natural numbers in ASCII decimal digits.
-/

namespace LiveExpr.Text

/-- Whether a character is an ASCII decimal digit. -/
def isDigit (c : Char) : Bool :=
  48 ≤ c.toNat ∧ c.toNat ≤ 57

/-- The number that digits state. -/
def digitsValue (digits : List Char) : Nat :=
  digits.foldl (fun n c => 10 * n + (c.toNat - 48)) 0

/-- A number in at least `width` digits. -/
def padNumber (width n : Nat) : List Char :=
  let digits := Nat.toDigits 10 n
  List.replicate (width - digits.length) '0' ++ digits

end LiveExpr.Text
