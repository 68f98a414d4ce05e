/-!
# Hexadecimal text

Lower-case hexadecimal digits, the written form of a number, and of a list of bytes by
two digits each.
-/

namespace LiveExpr.Text

/-- The lower-case hexadecimal digit of a number below 16. -/
def hexDigit (n : Nat) : Char :=
  if n < 10 then Char.ofNat (48 + n) else Char.ofNat (87 + n)

/-- The value of a hexadecimal digit of either case. -/
def hexValue? (c : Char) : Option Nat :=
  let code := c.toNat
  if 48 ≤ code ∧ code ≤ 57 then some (code - 48)
  else if 97 ≤ code ∧ code ≤ 102 then some (code - 87)
  else if 65 ≤ code ∧ code ≤ 70 then some (code - 55)
  else none

/-- The `width` lowest hexadecimal digits of a number. -/
def hexDigits : Nat → Nat → List Char
  | 0, _ => []
  | width + 1, n => hexDigits width (n / 16) ++ [hexDigit (n % 16)]

/-- A number in hexadecimal digits, without leading zeros. -/
def hexNumber (n : Nat) : List Char :=
  if n < 16 then [hexDigit n] else hexNumber (n / 16) ++ [hexDigit (n % 16)]

/-- The bytes of a list, by two digits each. -/
def hexBytes (bytes : List UInt8) : String :=
  String.ofList (bytes.flatMap fun b => hexDigits 2 b.toNat)

/-- The number that hexadecimal digits state. -/
def ofHexDigits? (digits : List Char) : Option Nat :=
  digits.foldlM (fun n c => (hexValue? c).map (16 * n + ·)) 0

theorem hexValue?_hexDigit {n : Nat} (h : n < 16) :
  hexValue? (hexDigit n) = some n
  := by
  revert n
  decide

theorem length_hexDigits (width n : Nat) :
  (hexDigits width n).length = width
  := by
  induction width generalizing n with
  | zero => rfl
  | succ width ih => rw [hexDigits, List.length_append, ih, List.length_singleton]

/-- The bytes that pairs of hexadecimal digits state. -/
def ofHexBytes? : List Char → Option (List UInt8)
  | [] => some []
  | a :: b :: rest => do
    let high ← hexValue? a
    let low ← hexValue? b
    let bytes ← ofHexBytes? rest
    some (UInt8.ofNat (16 * high + low) :: bytes)
  | [_] => none

end LiveExpr.Text
