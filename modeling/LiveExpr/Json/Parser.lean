import LiveExpr.Json.Raw
import LiveExpr.Text.Hex

/-!
# Reading JSON

A reader of JSON text by the strict grammar: four kinds of blanks, numbers without
leading zeros, strings without raw control characters, no comma before a closing
bracket.  Main functions: `RawJson.parse?` for a whole text, and `Json.parse?` for a text
whose value nests at most 127 deep.
-/

namespace LiveExpr

namespace RawJson

/-- Whether a character is a blank of JSON. -/
def isBlank (c : Char) : Bool :=
  c = ' ' ∨ c = '\n' ∨ c = '\r' ∨ c = '\t'

/-- A text after the blanks that it begins with. -/
def skipBlanks (text : List Char) : List Char :=
  text.dropWhile isBlank

/-! ### Strings -/

/-- A part of a string: a character, or a code unit that an escape states. -/
inductive StringPart where
  | char (c : Char)
  | unit (code : Nat)
deriving DecidableEq, Repr

/-- The character of a simple escape. -/
def simpleEscape? (c : Char) : Option Char :=
  if c = '"' ∨ c = '\\' ∨ c = '/' then some c
  else if c = 'b' then some (Char.ofNat 8)
  else if c = 'f' then some (Char.ofNat 12)
  else if c = 'n' then some '\n'
  else if c = 'r' then some '\r'
  else if c = 't' then some '\t'
  else none

/-- Reads the parts of a string, up to its closing quote. -/
def readParts? : List Char → Option (List StringPart × List Char)
  | [] => none
  | '"' :: rest => some ([], rest)
  | '\\' :: 'u' :: a :: b :: c :: d :: rest => do
    let code ← Text.ofHexDigits? [a, b, c, d]
    let (parts, rest) ← readParts? rest
    some (.unit code :: parts, rest)
  | '\\' :: c :: rest => do
    let c ← simpleEscape? c
    let (parts, rest) ← readParts? rest
    some (.char c :: parts, rest)
  | c :: rest =>
    if c = '\\' ∨ c.toNat < 0x20 then none
    else do
      let (parts, rest) ← readParts? rest
      some (.char c :: parts, rest)

/-- The characters of the parts of a string; a surrogate needs its partner. -/
def joinParts? : List StringPart → Option (List Char)
  | [] => some []
  | .char c :: rest => (joinParts? rest).map (c :: ·)
  | .unit high :: .unit low :: rest =>
    if 0xD800 ≤ high ∧ high < 0xDC00 then
      if 0xDC00 ≤ low ∧ low < 0xE000 then
        (joinParts? rest).map
          (Char.ofNat (0x10000 + (high - 0xD800) * 0x400 + (low - 0xDC00)) :: ·)
      else none
    else if 0xDC00 ≤ high ∧ high < 0xE000 then none
    else (joinParts? (.unit low :: rest)).map (Char.ofNat high :: ·)
  | .unit code :: rest =>
    if 0xD800 ≤ code ∧ code < 0xE000 then none
    else (joinParts? rest).map (Char.ofNat code :: ·)

/-- Reads a string after its opening quote. -/
def readString? (text : List Char) : Option (Option String × List Char) :=
  (readParts? text).map fun (parts, rest) => ((joinParts? parts).map String.ofList, rest)

/-! ### Values -/

mutual

/-- Reads a value. -/
def readValue? : Nat → List Char → Option (RawJson × List Char)
  | 0, _ => none
  | fuel + 1, text =>
    match skipBlanks text with
    | 'n' :: 'u' :: 'l' :: 'l' :: rest => some (.null, rest)
    | 't' :: 'r' :: 'u' :: 'e' :: rest => some (.bool true, rest)
    | 'f' :: 'a' :: 'l' :: 's' :: 'e' :: rest => some (.bool false, rest)
    | '"' :: rest => (readString? rest).map fun (s, rest) => (.string s, rest)
    | '[' :: rest =>
      match skipBlanks rest with
      | ']' :: rest => some (.array [], rest)
      | _ => (readItems? fuel rest).map fun (items, rest) => (.array items, rest)
    | '\x7b' :: rest =>
      match skipBlanks rest with
      | '\x7d' :: rest => some (.object [], rest)
      | _ => (readMembers? fuel rest).map fun (members, rest) => (.object members, rest)
    | text => (Numeral.read? text).map fun (n, rest) => (.number n, rest)

/-- Reads one item or more, up to the end of the array. -/
def readItems? : Nat → List Char → Option (List RawJson × List Char)
  | 0, _ => none
  | fuel + 1, text => do
    let (item, text) ← readValue? fuel text
    match skipBlanks text with
    | ',' :: rest =>
      let (items, rest) ← readItems? fuel rest
      some (item :: items, rest)
    | ']' :: rest => some ([item], rest)
    | _ => none

/-- Reads one member or more, up to the end of the object. -/
def readMembers? : Nat → List Char →
    Option (List (Option String × RawJson) × List Char)
  | 0, _ => none
  | fuel + 1, text =>
    match skipBlanks text with
    | '"' :: rest => do
      let (name, text) ← readString? rest
      match skipBlanks text with
      | ':' :: rest =>
        let (value, text) ← readValue? fuel rest
        match skipBlanks text with
        | ',' :: rest =>
          let (members, rest) ← readMembers? fuel rest
          some ((name, value) :: members, rest)
        | '\x7d' :: rest => some ([(name, value)], rest)
        | _ => none
      | _ => none
    | _ => none

end

/-- Reads a whole text.  Every value takes at least one character, so the length of the
text bounds the steps. -/
def parseChars? (text : List Char) : Option RawJson := do
  let (value, rest) ← readValue? (text.length + 1) text
  if (skipBlanks rest).isEmpty then some value else none

/-- Reads a whole string. -/
def parse? (text : String) : Option RawJson :=
  parseChars? text.toList

end RawJson

namespace Json

/-- How deep a value may nest. -/
def depthLimit : Nat := 127

/-- The value that a text states. -/
def parse? (text : String) : Option Json :=
  (RawJson.parse? text).bind (RawJson.toJson? depthLimit)

/-- The value that a text states by the grammar alone, which reserves no name. -/
def parseStrict? (text : String) : Option Json :=
  (RawJson.parse? text).bind (RawJson.convert? false depthLimit)

end Json

end LiveExpr
