import LiveExpr.Codec.Error
import LiveExpr.Value.Equality

/-!
# The round-trip representation

JSON for values that are stored and read back.  What JSON cannot tell apart is put into
an envelope, an object of a type and a value; a result has an envelope of its own with
the constructor beside the type.  Main functions: `write` and `read`, and
`isRoundtrippable`, which values read back unchanged.
-/

namespace LiveExpr.Roundtrip

/-! ### Writing -/

/-- An envelope. -/
def envelope (tag : String) (value : Json) : Json :=
  .object [("type", .string tag), ("value", value)]

/-- The envelope of a result. -/
def resultEnvelope (constructor : String) (value : Json) : Json :=
  .object [("constructor", .string constructor), ("type", .string "result"),
    ("values", .array [value])]

/-- The status code and the headers of a response. -/
def responseMeta (code : Int) (headers : List (String × String)) : Json :=
  .object [("code", .ofInt code),
    ("headers", .array (headers.map fun (name, value) =>
      .array [.string name, .string value]))]

mutual

/-- The JSON of a value. -/
def toJson : Value → Json
  | .int n => .ofInt n
  | .float x =>
    (Codec.finiteNumeral? x).getD (envelope "float" (.string (NumberLayout.text.write x)))
  | .bool b => .bool b
  | .null => .null
  | .char text => envelope "character" (.string text)
  | .str text => .string text
  | .list items => .array (itemsToJson items)
  | .record fields => .object (fieldsToJson fields)
  | .date moment => envelope "date" (.string moment.toIso)
  | .password secret => envelope "password" (.string (Text.Base64.standard.encode secret))
  | .uuid id => envelope "uuid" (.string id.toText)
  | .bytes content => envelope "bytes" (.string (Text.Base64.standard.encode content))
  | .db name => envelope "datastore" (.string name)
  | .just value => envelope "option" (toJson value)
  | .nothing => envelope "option" .null
  | .ok value => resultEnvelope "Ok" (toJson value)
  | .error value => resultEnvelope "Error" (toJson value)
  | .redirect url => envelope "redirect" (.string url)
  | .response code headers body =>
    envelope "response" (.array [responseMeta code headers, toJson body])
  | .named _ | .lambda _ _ _ => envelope "block" .null
  | .incomplete _ => envelope "incomplete" .null
  | .failure _ message => envelope "error" (.string message)
  | .errorRail value => envelope "errorrail" (toJson value)

/-- The JSON of the items of a list. -/
def itemsToJson : List Value → List Json
  | [] => []
  | item :: rest => toJson item :: itemsToJson rest

/-- The JSON of the fields of a record. -/
def fieldsToJson : List (String × Value) → List (String × Json)
  | [] => []
  | (name, value) :: rest => (name, toJson value) :: fieldsToJson rest

end

/-- The text of a value. -/
def write (value : Value) : String :=
  (toJson value).compact

/-! ### Reading -/

/-- The error of an envelope whose value should be a string. -/
def notAString {α : Type} (tag : String) : Except CodecError α :=
  .error (.invalidEnvelope tag "expected a string value")

/-- The float of a word. -/
def readFloat (text : String) : Except CodecError Value :=
  if text = "NaN" then .ok (.float .nan)
  else if text = "Infinity" then .ok (.float (.infinity false))
  else if text = "-Infinity" then .ok (.float (.infinity true))
  else .error (.invalidEnvelope "float" ("unknown float `" ++ text ++ "`"))

/-- The value of an envelope that holds a string. -/
def readText (tag text : String) : Except CodecError Value :=
  match tag with
  | "character" =>
    match Value.ofCharacter text with
    | .ok c => .ok c
    | .error e => .error (.invalidCharacter e)
  | "error" => .ok (.failure .unknown text)
  | "redirect" => .ok (.redirect text)
  | "datastore" => .ok (.db text)
  | "date" => Codec.readDate tag text
  | "password" => (Codec.readBytes tag text).map .password
  | "uuid" => Codec.readUuid tag text
  | "bytes" => (Codec.readBytes tag text).map .bytes
  | "float" => readFloat text
  | _ => .error (.unknownEnvelope tag)

/-- The tags of envelopes that hold a string. -/
def textTags : List String :=
  ["character", "error", "redirect", "datastore", "date", "password", "uuid", "bytes",
    "float"]

/-- The value of an envelope that holds no other value. -/
def readPlain (tag : String) (value : Json) : Except CodecError Value :=
  match tag with
  | "block" => .error (.invalidEnvelope tag "functions cannot be deserialized")
  | "incomplete" => .ok (.incomplete .unknown)
  | "response" => .error (.invalidEnvelope tag "expected [metadata, body]")
  | "result" => .error (.invalidEnvelope tag "expected exactly one value")
  | _ =>
    match value with
    | .string text => readText tag text
    | _ => if tag ∈ textTags then notAString tag else .error (.unknownEnvelope tag)

/-- The error of a response. -/
def badResponse {α : Type} (reason : String) : Except CodecError α :=
  .error (.invalidEnvelope "response" reason)

/-- Whether an integer has 64 bits, one of them for the sign. -/
def isCode (n : Int) : Bool :=
  Int64.minValue.toInt ≤ n ∧ n ≤ Int64.maxValue.toInt

/-- The status code of a response: an integer of 64 bits. -/
def readCode : Json → Except CodecError Int
  | .object members =>
    match Fields.get? "code" members with
    | some (.number n) =>
      if n.isInteger ∧ isCode n.toInt then .ok n.toInt
      else badResponse "missing status code"
    | _ => badResponse "missing status code"
  | _ => badResponse "missing status code"

/-- One header of a response. -/
def readHeader : Json → Except CodecError (String × String)
  | .array [.string name, .string value] => .ok (name, value)
  | _ => badResponse "headers must be [name, value] string pairs"

/-- The headers of a response. -/
def readHeaders : Json → Except CodecError (List (String × String))
  | .object members =>
    match Fields.get? "headers" members with
    | some (.array headers) => headers.mapM readHeader
    | _ => badResponse "missing headers"
  | _ => badResponse "missing headers"

/-- The result of a constructor. -/
def readResult (constructor : Json) (value : Value) : Except CodecError Value :=
  match constructor with
  | .string "Ok" => .ok (.ok value)
  | .string "Error" => .ok (.error value)
  | _ => .error (.invalidEnvelope "result" "constructor must be `Ok` or `Error`")

mutual

/-- The value of a JSON value.  An object is an envelope if it has exactly the members
of one and its type is a string; any other object is a record. -/
def ofJson : Json → Except CodecError Value
  | .null => .ok .null
  | .bool b => .ok (.bool b)
  | .number n => .ok (Codec.ofNumeral n)
  | .string text => .ok (.ofText text)
  | .array items => (itemsOfJson items).map .ofItems
  | .object [("type", .string tag), ("value", value)] =>
    if tag = "option" then
      match value with
      | .null => .ok .nothing
      | _ => (ofJson value).map .just
    else if tag = "errorrail" then (ofJson value).map .errorRail
    else
      match value with
      | .array [head, body] =>
        if tag = "response" then do
          let code ← readCode head
          let headers ← readHeaders head
          let body ← ofJson body
          .ok (.response code headers body)
        else readPlain tag value
      | _ => readPlain tag value
  | .object [("constructor", constructor), ("type", .string "result"), ("values", values)] =>
    match values with
    | .array [value] => do readResult constructor (← ofJson value)
    | _ => .error (.invalidEnvelope "result" "expected exactly one value")
  | .object members => (membersOfJson members).map .record

/-- The values of the items of an array. -/
def itemsOfJson : List Json → Except CodecError (List Value)
  | [] => .ok []
  | item :: rest => do
    let value ← ofJson item
    let values ← itemsOfJson rest
    .ok (value :: values)

/-- The fields of the members of an object. -/
def membersOfJson : List (String × Json) → Except CodecError (List (String × Value))
  | [] => .ok []
  | (name, member) :: rest => do
    let value ← ofJson member
    let fields ← membersOfJson rest
    .ok ((name, value) :: fields)

end

/-- An array is read as the list of its items. -/
theorem ofJson_array (items : List Json) :
  ofJson (.array items) = (itemsOfJson items).map .ofItems
  := by
  rw [ofJson]

/-- The value of a text. -/
def read (text : String) : Except CodecError Value := do
  ofJson (← Codec.parseJson text)

/-! ### What reads back -/

/-- Whether a record has exactly the members of an envelope. -/
def looksLikeEnvelope : List (String × Value) → Bool
  | [("type", .str _), ("value", _)] => true
  | [("constructor", _), ("type", .str "result"), ("values", _)] => true
  | _ => false

mutual

/-- Whether a value reads back unchanged.  Two kinds that do not are let pass if
`lossy` says so: fake values in lists, and `Just null`, which is written like
`Nothing`. -/
def isRoundtrippable (lossy : Bool) : Value → Bool
  | .named _ | .lambda _ _ _ => false
  | .float x => x.isFinite
  | .date moment => moment.nanos == 0
  | .list items => itemsRoundtrippable lossy items
  | .record fields => !looksLikeEnvelope fields && fieldsRoundtrippable lossy fields
  | .just value => (lossy || !value.same .null) && isRoundtrippable lossy value
  | .ok value | .error value | .errorRail value => isRoundtrippable lossy value
  | .response _ _ body => isRoundtrippable lossy body
  | _ => true

/-- Whether the items of a list read back unchanged. -/
def itemsRoundtrippable (lossy : Bool) : List Value → Bool
  | [] => true
  | item :: rest =>
    (lossy || !item.isFake) && isRoundtrippable lossy item && itemsRoundtrippable lossy rest

/-- Whether the fields of a record read back unchanged. -/
def fieldsRoundtrippable (lossy : Bool) : List (String × Value) → Bool
  | [] => true
  | (_, value) :: rest => isRoundtrippable lossy value && fieldsRoundtrippable lossy rest

end

end LiveExpr.Roundtrip
