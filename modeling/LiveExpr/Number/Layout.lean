import LiveExpr.Number.Numeral
import LiveExpr.Number.Shortest

/-!
# Layouts of binary numbers

How a binary number is written: in its shortest digits, positionally between two powers
of ten and with an exponent outside, and always with a point or an exponent, so that it
never reads back as an integer.
-/

namespace LiveExpr

/-- The choices of a written form of binary numbers. -/
structure NumberLayout where
  /-- The least decimal exponent that is written positionally. -/
  lowest : Int
  /-- The greatest decimal exponent that is written positionally. -/
  highest : Int
  /-- Whether a positive exponent has a sign. -/
  plus : Bool
  /-- Which of two equally near decimals is written. -/
  tie : Tie

namespace NumberLayout

/-- Numbers in JSON. -/
def json : NumberLayout := ⟨-5, 15, true, .even⟩

/-- Numbers in text for readers. -/
def text : NumberLayout := ⟨-4, 15, false, .up⟩

/-- The digits of a natural number. -/
def digits (n : Nat) : List Digit :=
  (Digit.span (Nat.toDigits 10 n)).1

/-- The numeral of a decimal in positional form. -/
def positional (negative : Bool) (d : Decimal) : Numeral :=
  if 0 ≤ d.exponent then
    ⟨negative, d.coefficient * Nat.pow 10 d.exponent.toNat, [.zero], none⟩
  else
    let places := (-d.exponent).toNat
    let low := digits (d.coefficient % Nat.pow 10 places)
    ⟨negative, d.coefficient / Nat.pow 10 places,
      List.replicate (places - low.length) .zero ++ low, none⟩

/-- The numeral of a decimal with one digit before the point and the exponent
`magnitude`. -/
def scientific (negative : Bool) (d : Decimal) (magnitude : Int) : Numeral :=
  match digits d.coefficient with
  | [] => ⟨negative, 0, [], none⟩
  | first :: fraction =>
    let exponent := match digits magnitude.natAbs with
      | [] => none
      | e :: others => some ⟨magnitude < 0, e, others⟩
    ⟨negative, first.val, fraction, exponent⟩

/-- The numeral of a finite number. -/
def numeral (layout : NumberLayout) (x : Binary64) : Numeral :=
  let d := x.shortest layout.tie
  if d.coefficient = 0 then ⟨x.isNegative, 0, [.zero], none⟩
  else
    let magnitude := d.exponent + (digits d.coefficient).length - 1
    if layout.lowest ≤ magnitude ∧ magnitude ≤ layout.highest then
      positional x.isNegative d
    else scientific x.isNegative d magnitude

/-- The text of a number; what is not finite is written as a word. -/
def write (layout : NumberLayout) (x : Binary64) : String :=
  if x.isNaN then "NaN"
  else if x.isInfinite then (if x.isNegative then "-Infinity" else "Infinity")
  else String.ofList ((layout.numeral x).chars layout.plus)

end NumberLayout

end LiveExpr
