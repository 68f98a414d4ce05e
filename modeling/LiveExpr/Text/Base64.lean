/-!
# Base64

Bytes written with 64 symbols, three bytes by four symbols.  The standard form pads the
last group with `=` and is read strictly, each fault by its own error; the form for
names replaces two symbols and does not pad.
-/

namespace LiveExpr.Text.Base64

/-- The symbols of a form after the digits, and whether its last group is padded. -/
structure Alphabet where
  symbol62 : Char
  symbol63 : Char
  padding : Bool

/-- The standard form ends the alphabet with `+` and `/` and pads. -/
def standard : Alphabet := ⟨'+', '/', true⟩

/-- The form for names ends the alphabet with `-` and `_` and does not pad. -/
def forNames : Alphabet := ⟨'-', '_', false⟩

/-! ### Writing -/

/-- The symbol of a number below 64. -/
def Alphabet.symbol (alphabet : Alphabet) (n : Nat) : Char :=
  if n < 26 then Char.ofNat (65 + n)
  else if n < 52 then Char.ofNat (71 + n)
  else if n < 62 then Char.ofNat (n - 4)
  else if n = 62 then alphabet.symbol62
  else alphabet.symbol63

/-- The symbols of a list of bytes. -/
def Alphabet.encodeChars (alphabet : Alphabet) : List UInt8 → List Char
  | [] => []
  | [a] =>
    let symbols := [alphabet.symbol (a.toNat / 4), alphabet.symbol (a.toNat % 4 * 16)]
    if alphabet.padding then symbols ++ ['=', '='] else symbols
  | [a, b] =>
    let symbols := [alphabet.symbol (a.toNat / 4),
      alphabet.symbol (a.toNat % 4 * 16 + b.toNat / 16),
      alphabet.symbol (b.toNat % 16 * 4)]
    if alphabet.padding then symbols ++ ['='] else symbols
  | a :: b :: c :: rest =>
    alphabet.symbol (a.toNat / 4)
      :: alphabet.symbol (a.toNat % 4 * 16 + b.toNat / 16)
      :: alphabet.symbol (b.toNat % 16 * 4 + c.toNat / 64)
      :: alphabet.symbol (c.toNat % 64)
      :: alphabet.encodeChars rest

/-- The text of a list of bytes. -/
def Alphabet.encode (alphabet : Alphabet) (bytes : List UInt8) : String :=
  String.ofList (alphabet.encodeChars bytes)

/-! ### Reading -/

/-- Why a text is no standard form. -/
inductive Error where
  | symbol (byte : UInt8) (offset : Nat)
  | length (count : Nat)
  | padding
  | lastSymbol (byte : UInt8) (offset : Nat)
deriving DecidableEq, Repr

/-- The wording of an error. -/
def Error.message : Error → String
  | .symbol byte offset => s!"Invalid symbol {byte.toNat}, offset {offset}."
  | .length count => s!"Invalid input length: {count}"
  | .padding => "Invalid padding"
  | .lastSymbol byte offset => s!"Invalid last symbol {byte.toNat}, offset {offset}."

/-- The number of a symbol of the standard form. -/
def value? (byte : UInt8) : Option Nat :=
  let code := byte.toNat
  if 65 ≤ code ∧ code ≤ 90 then some (code - 65)
  else if 97 ≤ code ∧ code ≤ 122 then some (code - 71)
  else if 48 ≤ code ∧ code ≤ 57 then some (code + 4)
  else if code = 43 then some 62
  else if code = 47 then some 63
  else none

/-- The byte that pads. -/
def pad : UInt8 := 61

/-- The numbers of symbols that stand from an offset on, no padding among them. -/
def readSymbols (offset : Nat) : List UInt8 → Except Error (List Nat)
  | [] => .ok []
  | byte :: rest =>
    match value? byte with
    | none => .error (.symbol byte offset)
    | some n => (readSymbols (offset + 1) rest).map (n :: ·)

/-- The last group as read so far. -/
structure Tail where
  values : List Nat
  last : UInt8
  firstPad : Option Nat
  pads : Nat

/-- Reads the last group, which starts at an offset, from index `index` on. -/
def readTail (offset index : Nat) (tail : Tail) : List UInt8 → Except Error Tail
  | [] => .ok tail
  | byte :: rest =>
    if byte = pad then
      if index < 2 then .error (.symbol pad (offset + index))
      else readTail offset (index + 1)
        { tail with firstPad := tail.firstPad.or (some index), pads := tail.pads + 1 } rest
    else
      match tail.firstPad with
      | some first => .error (.symbol pad (offset + first))
      | none =>
        match value? byte with
        | none => .error (.symbol byte (offset + index))
        | some n =>
          readTail offset (index + 1)
            { tail with values := tail.values ++ [n], last := byte } rest

/-- The bytes of symbols' numbers; bits that fill no byte are dropped. -/
def toBytes : List Nat → List UInt8
  | a :: b :: c :: d :: rest =>
    UInt8.ofNat (a * 4 + b / 16) :: UInt8.ofNat (b % 16 * 16 + c / 4)
      :: UInt8.ofNat (c % 4 * 64 + d) :: toBytes rest
  | [a, b, c] => [UInt8.ofNat (a * 4 + b / 16), UInt8.ofNat (b % 16 * 16 + c / 4)]
  | [a, b] => [UInt8.ofNat (a * 4 + b / 16)]
  | _ => []

/-- The bits of a last group that fill no byte. -/
def leftover : List Nat → Nat
  | [_, b] => b % 16
  | [_, _, c] => c % 4
  | _ => 0

/-- The bytes that a text of the standard form, given by its bytes, stands for.  A text
whose length leaves remainder 1 and whose last byte is no symbol is refused for that
byte first; then the full groups are read, and then the last group. -/
def decodeBytes (text : List UInt8) : Except Error (List UInt8) :=
  let size := text.length
  match text.getLast? with
  | none => .ok []
  | some final =>
    if size % 4 = 1 ∧ final ≠ pad ∧ value? final = none then
      .error (.symbol final (size - 1))
    else do
      let offset := size - ((size - 1) % 4 + 1)
      let values ← readSymbols 0 (text.take offset)
      let tail ← readTail offset 0 ⟨[], 0, none, 0⟩ (text.drop offset)
      let count := tail.values.length
      if count < 2 then .error (.length (offset + count))
      else if (count + tail.pads) % 4 ≠ 0 then .error .padding
      else if leftover tail.values ≠ 0 then
        .error (.lastSymbol tail.last (offset + count - 1))
      else .ok (toBytes (values ++ tail.values))

/-- The bytes that a text of the standard form stands for. -/
def decode (text : String) : Except Error (List UInt8) :=
  decodeBytes text.toUTF8.toList

end LiveExpr.Text.Base64
