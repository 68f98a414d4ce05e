import LiveExpr.Json.Basic
import LiveExpr.Text.Hex

/-!
# JSON text

The two written forms of a JSON value: the compact one without blanks, and the indented
one with a line for each item and two spaces for each level.
-/

namespace LiveExpr.Json

/-- The escaped form of a character inside a string. -/
def escapeChar (c : Char) : List Char :=
  if c = '"' then ['\\', '"']
  else if c = '\\' then ['\\', '\\']
  else if 0x20 ≤ c.toNat then [c]
  else if c = '\n' then ['\\', 'n']
  else if c = '\r' then ['\\', 'r']
  else if c = '\t' then ['\\', 't']
  else if c.toNat = 8 then ['\\', 'b']
  else if c.toNat = 12 then ['\\', 'f']
  else ['\\', 'u'] ++ Text.hexDigits 4 c.toNat

/-- The written form of a string. -/
def stringChars (text : String) : List Char :=
  '"' :: text.toList.flatMap escapeChar ++ ['"']

mutual

/-- The compact form of a value. -/
def compactChars : Json → List Char
  | .null => ['n', 'u', 'l', 'l']
  | .bool true => ['t', 'r', 'u', 'e']
  | .bool false => ['f', 'a', 'l', 's', 'e']
  | .number n => n.chars true
  | .string s => stringChars s
  | .array items => '[' :: compactItems items
  | .object members => '\x7b' :: compactMembers members

/-- The compact form of the items of an array, up to its end. -/
def compactItems : List Json → List Char
  | [] => [']']
  | [item] => compactChars item ++ [']']
  | item :: rest => compactChars item ++ ',' :: compactItems rest

/-- The compact form of the members of an object, up to its end. -/
def compactMembers : List (String × Json) → List Char
  | [] => ['\x7d']
  | [(name, value)] => stringChars name ++ ':' :: compactChars value ++ ['\x7d']
  | (name, value) :: rest =>
    stringChars name ++ ':' :: compactChars value ++ ',' :: compactMembers rest

end

/-- The compact text of a value. -/
def compact (j : Json) : String :=
  String.ofList (compactChars j)

/-- A line break, and the indentation of a level. -/
def lineBreak (level : Nat) : List Char :=
  '\n' :: List.replicate (2 * level) ' '

mutual

/-- The indented form of a value at a level. -/
def prettyChars (level : Nat) : Json → List Char
  | .null => ['n', 'u', 'l', 'l']
  | .bool true => ['t', 'r', 'u', 'e']
  | .bool false => ['f', 'a', 'l', 's', 'e']
  | .number n => n.chars true
  | .string s => stringChars s
  | .array [] => ['[', ']']
  | .array (item :: rest) =>
    '[' :: lineBreak (level + 1) ++ prettyChars (level + 1) item
      ++ prettyItems level rest
  | .object [] => ['\x7b', '\x7d']
  | .object ((name, value) :: rest) =>
    '\x7b' :: lineBreak (level + 1) ++ stringChars name ++ ':' :: ' '
      :: prettyChars (level + 1) value ++ prettyMembers level rest

/-- The indented form of the items of an array after the first, up to its end. -/
def prettyItems (level : Nat) : List Json → List Char
  | [] => lineBreak level ++ [']']
  | item :: rest =>
    ',' :: lineBreak (level + 1) ++ prettyChars (level + 1) item ++ prettyItems level rest

/-- The indented form of the members of an object after the first, up to its end. -/
def prettyMembers (level : Nat) : List (String × Json) → List Char
  | [] => lineBreak level ++ ['\x7d']
  | (name, value) :: rest =>
    ',' :: lineBreak (level + 1) ++ stringChars name ++ ':' :: ' '
      :: prettyChars (level + 1) value ++ prettyMembers level rest

end

/-- The indented text of a value. -/
def pretty (j : Json) : String :=
  String.ofList (prettyChars 0 j)

end LiveExpr.Json
