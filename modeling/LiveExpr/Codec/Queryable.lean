import LiveExpr.Codec.Error

/-!
# The queryable representation

JSON for records in an indexed store, where as much as possible is plain JSON that can be
searched.  Only dates, passwords and UUIDs are put into envelopes.  Main functions:
`write` and `read`, and `isQueryable`, which values may be stored in a record.
-/

namespace LiveExpr.Queryable

/-- The tags of envelopes. -/
def tags : List String := ["date", "password", "uuid"]

/-! ### What can be stored -/

/-- Whether a record would be read as an envelope. -/
def looksLikeEnvelope : List (String × Value) → Bool
  | [("type", .str tag), ("value", _)] => tag ∈ tags
  | _ => false

mutual

/-- Whether a value may be stored in a record. -/
def isQueryable : Value → Bool
  | .int _ | .bool _ | .null | .str _ | .password _ | .date _ | .uuid _ => true
  | .float x => x.isFinite
  | .list items => itemsQueryable items
  | .record fields => !looksLikeEnvelope fields && fieldsQueryable fields
  | _ => false

/-- Whether the items of a list may be stored. -/
def itemsQueryable : List Value → Bool
  | [] => true
  | item :: rest => isQueryable item && itemsQueryable rest

/-- Whether the values of fields may be stored. -/
def fieldsQueryable : List (String × Value) → Bool
  | [] => true
  | (_, value) :: rest => isQueryable value && fieldsQueryable rest

end

/-! ### Writing -/

/-- An envelope. -/
def envelope (tag value : String) : Json :=
  .object [("type", .string tag), ("value", .string value)]

/-- The error for a value that is not written. -/
def unsupported {α : Type} (value : Value) : Except CodecError α :=
  .error (.unsupportedValue value.typeName)

mutual

/-- The JSON of a value. -/
def toJson : Value → Except CodecError Json
  | .int n => .ok (.ofInt n)
  | .float x =>
    match Codec.finiteNumeral? x with
    | some j => .ok j
    | none => unsupported (.float x)
  | .bool b => .ok (.bool b)
  | .null => .ok .null
  | .str text => .ok (.string text)
  | .list items => (itemsToJson items).map .array
  | .record fields => (fieldsToJson fields).map .object
  | .date moment => .ok (envelope "date" moment.toIso)
  | .password secret => .ok (envelope "password" (Text.Base64.standard.encode secret))
  | .uuid id => .ok (envelope "uuid" id.toText)
  | value => unsupported value

/-- The JSON of the items of a list. -/
def itemsToJson : List Value → Except CodecError (List Json)
  | [] => .ok []
  | item :: rest => do
    let j ← toJson item
    let js ← itemsToJson rest
    .ok (j :: js)

/-- The JSON of the fields of a record. -/
def fieldsToJson : List (String × Value) → Except CodecError (List (String × Json))
  | [] => .ok []
  | (name, value) :: rest => do
    let j ← toJson value
    let members ← fieldsToJson rest
    .ok ((name, j) :: members)

end

/-- The text of a record. -/
def write : Value → Except CodecError String
  | .record fields => (fieldsToJson fields).map fun members => (Json.object members).compact
  | value => .error (.notAnObject value.typeName)

/-! ### Reading -/

/-- The value of an envelope. -/
def readEnvelope (tag text : String) : Except CodecError Value :=
  match tag with
  | "date" => Codec.readDate tag text
  | "password" => (Codec.readBytes tag text).map .password
  | "uuid" => Codec.readUuid tag text
  | _ => .error (.unknownEnvelope tag)

mutual

/-- The value of a JSON value.  An object is an envelope if its members are a type with
one of the tags and a string as the value. -/
def ofJson : Json → Except CodecError Value
  | .null => .ok .null
  | .bool b => .ok (.bool b)
  | .number n => .ok (Codec.ofNumeral n)
  | .string text => .ok (.ofText text)
  | .array items => (itemsOfJson items).map .ofItems
  | .object members =>
    match members with
    | [("type", .string tag), ("value", .string text)] =>
      if tag ∈ tags then readEnvelope tag text
      else (membersOfJson members).map .record
    | _ => (membersOfJson members).map .record

/-- The values of the items of an array. -/
def itemsOfJson : List Json → Except CodecError (List Value)
  | [] => .ok []
  | item :: rest => do
    let value ← ofJson item
    let values ← itemsOfJson rest
    .ok (value :: values)

/-- The fields of the members of an object. -/
def membersOfJson : List (String × Json) → Except CodecError (List (String × Value))
  | [] => .ok []
  | (name, member) :: rest => do
    let value ← ofJson member
    let fields ← membersOfJson rest
    .ok ((name, value) :: fields)

end

/-- The record of a text; at the top level no object is an envelope. -/
def read (text : String) : Except CodecError Value := do
  match ← Codec.parseJson text with
  | .object members => (membersOfJson members).map .record
  | j => .error (.notAnObject j.kind)

end LiveExpr.Queryable
