import LiveExpr.Codec.Error

/-!
# Machine JSON

Indented JSON for other programs.  Wrappers are taken off instead of written, so it does
not read back; passwords are never written.  Main functions: `write`, and `read`, which
takes any JSON for plain data.
-/

namespace LiveExpr.MachineJson

/-- The object of an error. -/
def errorObject (j : Json) : Json :=
  .object [("Error", j)]

mutual

/-- The JSON of a value. -/
def toJson : Value → Json
  | .int n => .ofInt n
  | .float x => (Codec.finiteNumeral? x).getD .null
  | .bool b => .bool b
  | .null | .named _ | .lambda _ _ _ | .incomplete _ | .nothing | .redirect _ => .null
  | .char text | .str text => .string text
  | .list items => .array (itemsToJson items)
  | .record fields => .object (fieldsToJson fields)
  | .date moment => .string moment.toIso
  | .password _ => errorObject (.string "Password is redacted")
  | .uuid id => .string id.toText
  | .bytes content => .string (Text.Base64.standard.encode content)
  | .db name => .string name
  | .just value | .errorRail value | .ok value => toJson value
  | .error value => errorObject (toJson value)
  | .response _ _ body => toJson body
  | .failure _ message => errorObject (.string message)

/-- The JSON of the items of a list. -/
def itemsToJson : List Value → List Json
  | [] => []
  | item :: rest => toJson item :: itemsToJson rest

/-- The JSON of the fields of a record. -/
def fieldsToJson : List (String × Value) → List (String × Json)
  | [] => []
  | (name, value) :: rest => (name, toJson value) :: fieldsToJson rest

end

/-- The indented text of a value. -/
def write (value : Value) : String :=
  (toJson value).pretty

mutual

/-- The plain data of a JSON value: objects are records. -/
def ofJson : Json → Value
  | .null => .null
  | .bool b => .bool b
  | .number n => Codec.ofNumeral n
  | .string text => .ofText text
  | .array items => .ofItems (itemsOfJson items)
  | .object members => .record (membersOfJson members)

/-- The plain data of the items of an array. -/
def itemsOfJson : List Json → List Value
  | [] => []
  | item :: rest => ofJson item :: itemsOfJson rest

/-- The plain data of the members of an object. -/
def membersOfJson : List (String × Json) → List (String × Value)
  | [] => []
  | (name, member) :: rest => (name, ofJson member) :: membersOfJson rest

end

/-- The plain data of a text. -/
def read (text : String) : Except CodecError Value :=
  (Codec.parseJson text).map ofJson

end LiveExpr.MachineJson
