import LiveExpr.Json.Parser
import LiveExpr.Json.Printer
import LiveExpr.Number.Layout
import LiveExpr.Text.Base64
import LiveExpr.Time.IsoText
import LiveExpr.Value.Basic

/-!
# Codec errors and fragments

Why a text cannot be read as a value or a value cannot be written, and the pieces of
text that several representations share.
-/

namespace LiveExpr

/-- Why a codec fails. -/
inductive CodecError where
  | invalidJson
  | unsupportedValue (what : String)
  | notAnObject (kind : String)
  | unknownEnvelope (tag : String)
  | invalidEnvelope (tag reason : String)
  | unsupportedHashVersion (version : UInt32)
  | invalidCharacter (error : Value.CharacterError)
deriving DecidableEq, Repr

namespace CodecError

/-- The wording of an error. -/
def message : CodecError → String
  | .invalidJson => "invalid JSON:"
  | .unsupportedValue what => what ++ " values are not supported in this representation"
  | .notAnObject kind => "expected an object at the top level, got " ++ kind
  | .unknownEnvelope tag => "unknown envelope type `" ++ tag ++ "`"
  | .invalidEnvelope tag reason => "invalid `" ++ tag ++ "` envelope: " ++ reason
  | .unsupportedHashVersion version => "unsupported hash version " ++ toString version.toNat
  | .invalidCharacter error => error.message

end CodecError

namespace Codec

/-- The JSON value that a text states. -/
def parseJson (text : String) : Except CodecError Json :=
  match Json.parse? text with
  | some j => .ok j
  | none => .error .invalidJson

/-- The value of a numeral: an integer, or a binary number if it has a fraction or an
exponent. -/
def ofNumeral (n : Numeral) : Value :=
  if n.isInteger then .int n.toInt else .float n.toBinary64

/-- The numeral of a finite binary number. -/
def finiteNumeral? (x : Binary64) : Option Json :=
  if x.isFinite then some (.number (NumberLayout.json.numeral x)) else none

/-- A line break, and the indentation of a line. -/
def lineBreak (indent : Nat) : String :=
  "\n" ++ String.ofList (List.replicate indent ' ')

/-- The headers of a response on one line, with a separator between them. -/
def headersText (separator : String) (headers : List (String × String)) : String :=
  let rows := headers.map fun (name, value) => name ++ ": " ++ value
  "\x7b " ++ separator.intercalate rows ++ " \x7d"

/-- The date of an envelope. -/
def readDate (tag text : String) : Except CodecError Value :=
  match Timestamp.ofIso? text with
  | some moment => .ok (.ofMoment moment)
  | none => .error (.invalidEnvelope tag "invalid date")

/-- The bytes of an envelope. -/
def readBytes (tag text : String) : Except CodecError (List UInt8) :=
  match Text.Base64.decode text with
  | .ok bytes => .ok bytes
  | .error e => .error (.invalidEnvelope tag e.message)

/-- The UUID of an envelope. -/
def readUuid (tag text : String) : Except CodecError Value :=
  match Uuid.parse text with
  | .ok id => .ok (.uuid id)
  | .error e => .error (.invalidEnvelope tag e.message)

end Codec

end LiveExpr
