import LiveExpr.Number.Binary64

/-!
# Numerals

The written form of a number: a sign, a whole part without leading zeros, and optionally
a fraction and a decimal exponent.  A numeral keeps every digit of its text.  Without
fraction and exponent it denotes an integer, with either of them a binary number.
-/

namespace LiveExpr

/-- A decimal digit. -/
abbrev Digit := Fin 10

namespace Digit

def zero : Digit := ⟨0, by decide⟩

/-- The character of a digit. -/
def toChar (d : Digit) : Char :=
  Char.ofNat (48 + d.val)

/-- The digit of a character. -/
def ofChar? (c : Char) : Option Digit :=
  if h : 48 ≤ c.toNat ∧ c.toNat < 58 then some ⟨c.toNat - 48, by omega⟩ else none

/-- The digits that a text begins with, and the rest of it. -/
def span : List Char → List Digit × List Char
  | [] => ([], [])
  | c :: rest =>
    match ofChar? c with
    | some d =>
      let (digits, rest) := span rest
      (d :: digits, rest)
    | none => ([], c :: rest)

/-- The number that digits state. -/
def toNat (digits : List Digit) : Nat :=
  digits.foldl (fun n d => 10 * n + d.val) 0

end Digit

/-- The exponent of a numeral: a sign and at least one digit. -/
structure Exponent where
  negative : Bool
  first : Digit
  others : List Digit
deriving DecidableEq, Repr

/-- The value of an exponent. -/
def Exponent.value (e : Exponent) : Int :=
  let size : Int := Digit.toNat (e.first :: e.others)
  if e.negative then -size else size

/-- A written number.  No fraction is written when there are no digits for it. -/
structure Numeral where
  negative : Bool
  whole : Nat
  fraction : List Digit
  exponent : Option Exponent
deriving DecidableEq, Repr

namespace Numeral

/-- The numeral of an integer. -/
def ofInt (n : Int) : Numeral :=
  ⟨n < 0, n.natAbs, [], none⟩

/-! ### Writing -/

/-- The text of an exponent; a sign `+` is written only if `plus` says so. -/
def exponentChars (plus : Bool) (e : Exponent) : List Char :=
  'e' :: (if e.negative then ['-'] else if plus then ['+'] else [])
    ++ (e.first :: e.others).map Digit.toChar

/-- The text of a numeral. -/
def chars (plus : Bool) (n : Numeral) : List Char :=
  (if n.negative then ['-'] else [])
    ++ Nat.toDigits 10 n.whole
    ++ (if n.fraction.isEmpty then [] else '.' :: n.fraction.map Digit.toChar)
    ++ (match n.exponent with
      | some e => exponentChars plus e
      | none => [])

/-! ### Reading -/

/-- Reads a whole part: a zero, or digits that do not begin with one. -/
def readWhole? (text : List Char) : Option (Nat × List Char) :=
  match Digit.span text with
  | ([], _) => none
  | (d :: digits, rest) =>
    if d = 0 ∧ digits ≠ [] then none else some (Digit.toNat (d :: digits), rest)

/-- Reads a fraction, which a point begins. -/
def readFraction? (text : List Char) : Option (List Digit × List Char) :=
  match text with
  | '.' :: rest =>
    match Digit.span rest with
    | ([], _) => none
    | (digits, rest) => some (digits, rest)
  | _ => some ([], text)

/-- Reads the digits of an exponent of the given sign. -/
def readExponentDigits? (negative : Bool) (text : List Char) :
    Option (Option Exponent × List Char) :=
  match Digit.span text with
  | ([], _) => none
  | (d :: digits, rest) => some (some ⟨negative, d, digits⟩, rest)

/-- Reads an exponent, which a letter `e` of either case begins. -/
def readExponent? (text : List Char) : Option (Option Exponent × List Char) :=
  match text with
  | [] => some (none, [])
  | c :: rest =>
    if c = 'e' ∨ c = 'E' then
      match rest with
      | '-' :: rest => readExponentDigits? true rest
      | '+' :: rest => readExponentDigits? false rest
      | _ => readExponentDigits? false rest
    else some (none, text)

/-- Reads a numeral without sign. -/
def readUnsigned? (negative : Bool) (text : List Char) : Option (Numeral × List Char) := do
  let (whole, text) ← readWhole? text
  let (fraction, text) ← readFraction? text
  let (exponent, text) ← readExponent? text
  some (⟨negative, whole, fraction, exponent⟩, text)

/-- Reads the numeral that a text begins with. -/
def read? (text : List Char) : Option (Numeral × List Char) :=
  match text with
  | '-' :: rest => readUnsigned? true rest
  | _ => readUnsigned? false text

/-! ### Meaning -/

/-- Whether a numeral denotes an integer. -/
def isInteger (n : Numeral) : Bool :=
  n.fraction.isEmpty && n.exponent.isNone

/-- The integer that a numeral's whole part denotes. -/
def toInt (n : Numeral) : Int :=
  if n.negative then -n.whole else n.whole

/-- The binary number nearest to a numeral. -/
def toBinary64 (n : Numeral) : Binary64 :=
  let coefficient := n.fraction.foldl (fun m d => 10 * m + d.val) n.whole
  let exponent := (n.exponent.map Exponent.value).getD 0 - n.fraction.length
  .ofDecimal n.negative coefficient exponent

end Numeral

end LiveExpr
