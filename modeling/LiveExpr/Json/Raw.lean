import LiveExpr.Json.Basic

/-!
# JSON as read

What a JSON text says before it is judged: members keep their order and their repeats,
nesting has no bound, and a string whose escapes leave a surrogate without its partner
stands for no text.  Numbers of any size pass through the reader as objects of a reserved
name, and an object of a text that begins with that name is taken for such a number.  Main
function: `RawJson.toJson?`, the value that is stated.
-/

namespace LiveExpr

/-- A JSON value as read from text. -/
inductive RawJson where
  | null
  | bool (value : Bool)
  | number (value : Numeral)
  | string (text : Option String)
  | array (items : List RawJson)
  | object (members : List (Option String × RawJson))
deriving Repr

/-- The reserved name under which a reader passes on the text of a number. -/
def Json.numberKey : String :=
  "$serde_json::private::Number"

namespace RawJson

/-- Whether an object is taken for a number: the first of its members has the reserved
name. -/
def isNumberObject : List (Option String × RawJson) → Bool
  | (some name, _) :: _ => name == Json.numberKey
  | _ => false

/-- The number of an object that is taken for one: its only member is the text of the
number, without blanks. -/
def objectNumber? : List (Option String × RawJson) → Option Numeral
  | [(_, .string (some text))] =>
    match Numeral.read? text.toList with
    | some (n, []) => some n
    | _ => none
  | _ => none

mutual

/-- The value that was read, if every string is a text and nesting is at most `depth`
deep.  Objects of the reserved name are numbers if `reserved` says so, and objects like
any other if it does not. -/
def convert? (reserved : Bool) (depth : Nat) : RawJson → Option Json
  | .null => some .null
  | .bool b => some (.bool b)
  | .number n => some (.number n)
  | .string text => text.map .string
  | .array items =>
    match depth with
    | 0 => none
    | depth + 1 => (convertItems? reserved depth items).map .array
  | .object members =>
    match depth with
    | 0 => none
    | depth + 1 =>
      if reserved && isNumberObject members then (objectNumber? members).map .number
      else (convertMembers? reserved depth members).map .ofPairs

/-- The values of the items of an array. -/
def convertItems? (reserved : Bool) (depth : Nat) : List RawJson → Option (List Json)
  | [] => some []
  | item :: rest => do
    let value ← convert? reserved depth item
    let values ← convertItems? reserved depth rest
    some (value :: values)

/-- The pairs of the members of an object. -/
def convertMembers? (reserved : Bool) (depth : Nat) : List (Option String × RawJson) →
    Option (List (String × Json))
  | [] => some []
  | (name, member) :: rest => do
    let name ← name
    let value ← convert? reserved depth member
    let values ← convertMembers? reserved depth rest
    some ((name, value) :: values)

end

/-- The value that a reader makes of what was read. -/
def toJson? (depth : Nat) (j : RawJson) : Option Json :=
  j.convert? true depth

end RawJson

mutual

/-- A value as it would be read. -/
def Json.toRaw : Json → RawJson
  | .null => .null
  | .bool b => .bool b
  | .number n => .number n
  | .string s => .string (some s)
  | .array items => .array (Json.itemsToRaw items)
  | .object members => .object (Json.membersToRaw members)

/-- The items of an array as they would be read. -/
def Json.itemsToRaw : List Json → List RawJson
  | [] => []
  | item :: rest => item.toRaw :: Json.itemsToRaw rest

/-- The members of an object as they would be read. -/
def Json.membersToRaw : List (String × Json) → List (Option String × RawJson)
  | [] => []
  | (name, value) :: rest => (some name, value.toRaw) :: Json.membersToRaw rest

end

end LiveExpr
