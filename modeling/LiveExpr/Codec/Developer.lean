import LiveExpr.Codec.Error

/-!
# Text for developers

The text of a value with its type in view, for messages and for looking into a program.
Containers are spread over indented lines.
-/

namespace LiveExpr.Developer

/-- A text under the name of a type. -/
def under (typeName text : String) : String :=
  "<" ++ typeName ++ ": " ++ text ++ ">"

mutual

/-- The text of a value whose lines after the first are indented. -/
def render (indent : Nat) : Value → String
  | .int n => toString n
  | .float x => NumberLayout.text.write x
  | .bool b => if b then "true" else "false"
  | .null => "null"
  | .char text => "'" ++ text ++ "'"
  | .str text => "\"" ++ text ++ "\""
  | .list [] => "[]"
  | .list (item :: rest) =>
    "[ " ++ Codec.lineBreak (indent + 2) ++ render (indent + 2) item
      ++ renderItems (indent + 2) rest ++ Codec.lineBreak indent ++ "]"
  | .record [] => "\x7b\x7d"
  | .record ((name, value) :: rest) =>
    "\x7b " ++ Codec.lineBreak (indent + 2) ++ name ++ ": " ++ render (indent + 2) value
      ++ renderFields (indent + 2) rest ++ Codec.lineBreak indent ++ "\x7d"
  | .date moment => under "Date" moment.toIso
  | .password _ => "<Password>"
  | .uuid id => under "UUID" id.toText
  | .bytes content => Text.Base64.standard.encode content
  | .db name => under "DB" name
  | .just value => "Just " ++ render (indent + 2) value
  | .nothing => "Nothing"
  | .ok value => "Ok " ++ render (indent + 2) value
  | .error value => "Error " ++ render (indent + 2) value
  | .redirect url => "302 " ++ url ++ Codec.lineBreak indent ++ "null"
  | .response code headers body =>
    toString code ++ " " ++ Codec.headersText "," headers ++ Codec.lineBreak indent
      ++ render (indent + 2) body
  | .named _ | .lambda _ _ _ => "<Block>"
  | .incomplete _ => "<Incomplete>"
  | .failure _ message => under "Error" message
  | .errorRail value => "ErrorRail: " ++ render (indent + 2) value

/-- The texts of further items of a list. -/
def renderItems (indent : Nat) : List Value → String
  | [] => ""
  | item :: rest => ", " ++ render indent item ++ renderItems indent rest

/-- The texts of further fields of a record. -/
def renderFields (indent : Nat) : List (String × Value) → String
  | [] => ""
  | (name, value) :: rest =>
    "," ++ Codec.lineBreak indent ++ name ++ ": " ++ render indent value
      ++ renderFields indent rest

end

/-- The text of a value. -/
def write (value : Value) : String :=
  render 0 value

end LiveExpr.Developer
