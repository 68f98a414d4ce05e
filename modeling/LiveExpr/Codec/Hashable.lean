import LiveExpr.Codec.Error
import LiveExpr.Sha384

/-!
# The hashable representation

The bytes that stand for a list of arguments where results are recorded, and their hash.
Version 0 puts the bytes of the arguments one after another; version 1 takes the text of
the arguments as one list, in which a value of bytes is replaced by its digest.
-/

namespace LiveExpr.Hashable

/-- The versions of the hash. -/
def supportedVersions : List UInt32 := [0, 1]

/-- The version that new results are recorded under. -/
def currentVersion : UInt32 := 1

/-- The SHA-384 digest of bytes, in the Base64 form for names. -/
def digest (bytes : List UInt8) : String :=
  Text.Base64.forNames.encode (Sha384.digest bytes)

mutual

/-- The text of a value whose lines after the first are indented. -/
def render (indent : Nat) : Value → String
  | .int n => toString n
  | .float x => NumberLayout.text.write x
  | .bool b => if b then "true" else "false"
  | .null => "null"
  | .char text => "'" ++ text ++ "'"
  | .str text => "\"" ++ text ++ "\""
  | .list [] => "[]"
  | .list (item :: rest) =>
    "[ " ++ Codec.lineBreak (indent + 2) ++ render (indent + 2) item
      ++ renderItems (indent + 2) rest ++ Codec.lineBreak indent ++ "]"
  | .record [] => "\x7b\x7d"
  | .record ((name, value) :: rest) =>
    "\x7b " ++ Codec.lineBreak (indent + 2) ++ name ++ ": " ++ render (indent + 2) value
      ++ renderFields (indent + 2) rest ++ Codec.lineBreak indent ++ "\x7d"
  | .date moment => "<date: " ++ moment.toIso ++ ">"
  | .password _ => "<password: <password>>"
  | .uuid id => "<uuid: " ++ id.toText ++ ">"
  | .bytes content => digest content
  | .db name => "<datastore: " ++ name ++ ">"
  | .just value => "Just " ++ render (indent + 2) value
  | .nothing => "Nothing"
  | .ok value => "ResultOk " ++ render (indent + 2) value
  | .error value => "ResultError " ++ render (indent + 2) value
  | .redirect url => "302 " ++ url ++ Codec.lineBreak indent ++ "null"
  | .response code headers body =>
    toString code ++ " " ++ Codec.headersText "," headers ++ Codec.lineBreak indent
      ++ render (indent + 2) body
  | .named _ | .lambda _ _ _ => "<block: <block>>"
  | .incomplete _ => "<incomplete: <incomplete>>"
  | .failure _ message => "<error: " ++ message ++ ">"
  | .errorRail value => "ErrorRail: " ++ render (indent + 2) value

/-- The texts of further items of a list. -/
def renderItems (indent : Nat) : List Value → String
  | [] => ""
  | item :: rest => ", " ++ render indent item ++ renderItems indent rest

/-- The texts of further fields of a record. -/
def renderFields (indent : Nat) : List (String × Value) → String
  | [] => ""
  | (name, value) :: rest =>
    "," ++ Codec.lineBreak indent ++ name ++ ": " ++ render indent value
      ++ renderFields indent rest

end

/-- The bytes of a value.  With `verbatim`, a value of bytes stands for itself; inside
another value it never does. -/
def bytes (verbatim : Bool) (value : Value) : List UInt8 :=
  match value with
  | .bytes content => if verbatim then content else (digest content).toUTF8.toList
  | _ => (render 0 value).toUTF8.toList

/-- The bytes of a list of arguments under a version. -/
def argumentBytes (version : UInt32) (args : List Value) : Except CodecError (List UInt8) :=
  if version = 0 then .ok (args.flatMap (bytes true))
  else if version = 1 then .ok (bytes false (.list args))
  else .error (.unsupportedHashVersion version)

/-- The hash of a list of arguments under a version. -/
def hash (version : UInt32) (args : List Value) : Except CodecError String :=
  (argumentBytes version args).map digest

end LiveExpr.Hashable
