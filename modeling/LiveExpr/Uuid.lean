import LiveExpr.Text.Hex

/-!
# UUIDs

A 128-bit identifier, its hyphenated written form, and the forms in which it is read:
32 digits, the hyphenated form, and that form between braces or after `urn:uuid:`.  A
text of another form is refused with the first fault that a reader would look for.
-/

namespace LiveExpr

/-- A universally unique identifier. -/
structure Uuid where
  value : BitVec 128
deriving DecidableEq, Repr

namespace Uuid

/-! ### Writing -/

/-- The digits of the five groups, with hyphens between them. -/
def hyphenate (digits : List Char) : List Char :=
  digits.take 8 ++ '-' :: (digits.drop 8).take 4 ++ '-' :: (digits.drop 12).take 4
    ++ '-' :: (digits.drop 16).take 4 ++ '-' :: digits.drop 20

/-- The hyphenated form, in lower case. -/
def toText (u : Uuid) : String :=
  String.ofList (hyphenate (Text.hexDigits 32 u.value.toNat))

/-! ### Reading -/

/-- Why a text is no UUID. -/
inductive Error where
  | length (found : Nat)
  | character (c : Char) (offset : Nat)
  | groupCount (found : Nat)
  | groupLength (group expected found : Nat)
deriving DecidableEq, Repr

/-- The wording of an error. -/
def Error.message : Error → String
  | .length found => s!"invalid length: found {found}"
  | .character c offset =>
    "invalid character: found `" ++ String.singleton c ++ s!"` at {offset}"
  | .groupCount found => s!"invalid group count: expected 5, found {found}"
  | .groupLength group expected found =>
    s!"invalid group length in group {group}: expected {expected}, found {found}"

/-- The number of bytes of a text. -/
def byteLength (text : List Char) : Nat :=
  text.foldr (fun c size => c.utf8Size + size) 0

/-- The UUID of 32 digits. -/
def ofDigits? (digits : List Char) : Option Uuid :=
  if digits.length = 32 then
    (Text.ofHexDigits? digits).map fun n => ⟨BitVec.ofNat 128 n⟩
  else none

/-- The UUID of a hyphenated text. -/
def ofHyphenated? (text : List Char) : Option Uuid :=
  let digits := text.filter (· ≠ '-')
  if text = hyphenate digits then ofDigits? digits else none

/-- The first character that is neither a digit nor a hyphen, with its byte offset. -/
def strayCharacter? (offset : Nat) : List Char → Option (Char × Nat)
  | [] => none
  | c :: rest =>
    if c = '-' ∨ (Text.hexValue? c).isSome then strayCharacter? (offset + 1) rest
    else some (c, offset)

/-- The offsets of the hyphens of a text of digits and hyphens. -/
def hyphens (offset : Nat) : List Char → List Nat
  | [] => []
  | c :: rest =>
    if c = '-' then offset :: hyphens (offset + 1) rest else hyphens (offset + 1) rest

/-- The first of the leading four groups that has a wrong length: its number, the
length that it should have and the length that it has. -/
def wrongGroup? : List Nat → Option (Nat × Nat × Nat)
  | [a, b, c, d] =>
    if a ≠ 8 then some (0, 8, a)
    else if b ≠ 13 then some (1, 4, b - 9)
    else if c ≠ 18 then some (2, 4, c - 14)
    else if d ≠ 23 then some (3, 4, d - 19)
    else none
  | _ => none

/-- The fault of a text that is no UUID.  The part `scanned` begins at `offset` in the
text, and `size` is the length of the text; `bare` says that a text without hyphens
should have been 32 digits. -/
def fault (scanned : List Char) (offset size : Nat) (bare : Bool) : Error :=
  match strayCharacter? offset scanned with
  | some (c, place) => .character c place
  | none =>
    let found := hyphens 0 scanned
    if found.isEmpty && bare then .length size
    else if found.length ≠ 4 then .groupCount (found.length + 1)
    else
      match wrongGroup? found with
      | some (group, expected, length) => .groupLength group expected length
      | none => .groupLength 4 12 (size - 24)

/-- What stands between a pair of braces that encloses the text. -/
def insideBraces? (text : List Char) : Option (List Char) :=
  match text with
  | '\x7b' :: rest => if rest.getLast? = some '\x7d' then some rest.dropLast else none
  | _ => none

/-- What follows `urn:uuid:`, in any case. -/
def afterUrn? (text : List Char) : Option (List Char) :=
  if (text.take 9).map Char.toLower = "urn:uuid:".toList then some (text.drop 9) else none

/-- The hyphenated part that a text of its length should hold. -/
def hyphenatedPart? (text : List Char) : Option (List Char) :=
  match byteLength text with
  | 36 => some text
  | 38 => insideBraces? text
  | 45 => afterUrn? text
  | _ => none

/-- The fault of a text without a hyphenated part. -/
def faultOf (text : List Char) : Error :=
  let size := byteLength text
  if size = 0 ∨ 45 < size then .length size
  else
    match insideBraces? text with
    | some inside => fault inside 1 size false
    | none =>
      match afterUrn? text with
      | some rest => fault rest 9 size false
      | none => fault text 0 size true

/-- The UUID that a text stands for. -/
def parseChars (text : List Char) : Except Error Uuid :=
  match hyphenatedPart? text with
  | some part =>
    match ofHyphenated? part with
    | some u => .ok u
    | none => .error (fault part 0 (byteLength part) false)
  | none =>
    match ofDigits? text with
    | some u => .ok u
    | none => .error (faultOf text)

/-- The UUID that a string stands for. -/
def parse (text : String) : Except Error Uuid :=
  parseChars text.toList

end Uuid

end LiveExpr
