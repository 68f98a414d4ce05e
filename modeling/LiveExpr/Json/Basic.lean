import LiveExpr.Fields
import LiveExpr.Number.Numeral

/-!
# JSON

JSON values, in which numbers keep the digits of their text and the members of an object
stand in ascending order of their names, each once.
-/

namespace LiveExpr

/-- A JSON value. -/
inductive Json where
  | null
  | bool (value : Bool)
  | number (value : Numeral)
  | string (value : String)
  | array (items : List Json)
  | object (members : List (String × Json))
deriving Repr

namespace Json

/-- The kind of a value, in words. -/
def kind : Json → String
  | .null => "null"
  | .bool _ => "boolean"
  | .number _ => "number"
  | .string _ => "string"
  | .array _ => "array"
  | .object _ => "object"

/-- The object of a list of pairs; the last pair of a name counts. -/
def ofPairs (pairs : List (String × Json)) : Json :=
  .object (Fields.ofPairs pairs)

/-- The number of an integer. -/
def ofInt (n : Int) : Json :=
  .number (.ofInt n)

mutual

/-- How deep arrays and objects are nested. -/
def nesting : Json → Nat
  | .null | .bool _ | .number _ | .string _ => 0
  | .array items => itemsNesting items + 1
  | .object members => membersNesting members + 1

/-- The greatest nesting of a list of values. -/
def itemsNesting : List Json → Nat
  | [] => 0
  | item :: rest => max (nesting item) (itemsNesting rest)

/-- The greatest nesting of the members of an object. -/
def membersNesting : List (String × Json) → Nat
  | [] => 0
  | (_, value) :: rest => max (nesting value) (membersNesting rest)

end

end Json

end LiveExpr
