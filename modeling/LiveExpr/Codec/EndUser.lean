import LiveExpr.Codec.MachineJson

/-!
# Text for end users

The text of a value for the people who use a program: plain, without types, and records
as indented JSON.
-/

namespace LiveExpr.EndUser

/-- Whether a value is quoted inside a container. -/
def isQuoted : Value → Bool
  | .str _ | .uuid _ | .char _ => true
  | _ => false

/-- The text of a part of a container, given the text that it has alone. -/
def nested (value : Value) (text : String) : String :=
  if isQuoted value then "\"" ++ text ++ "\"" else text

mutual

/-- The text of a value. -/
def write : Value → String
  | .int n => toString n
  | .float x => NumberLayout.text.write x
  | .bool b => if b then "true" else "false"
  | .null => "null"
  | .char text | .str text => text
  | .list [] => "[]"
  | .list (item :: rest) => "[ " ++ nested item (write item) ++ writeItems rest ++ " ]"
  | .record fields => MachineJson.write (.record fields)
  | .date moment => moment.toIso
  | .password _ => "<Password>"
  | .uuid id => id.toText
  | .bytes content => Text.Base64.standard.encode content
  | .db name => "<DB: " ++ name ++ ">"
  | .just value | .ok value | .errorRail value => write value
  | .nothing => "Nothing"
  | .error value => "Error: " ++ write value
  | .redirect url => "302 " ++ url ++ "\nnull"
  | .response code headers body =>
    toString code ++ " " ++ Codec.headersText ", " headers ++ "\n" ++ nested body (write body)
  | .named _ | .lambda _ _ _ => "<Block>"
  | .incomplete _ => "<Incomplete>"
  | .failure _ message => "Error: " ++ message

/-- The texts of further items of a list. -/
def writeItems : List Value → String
  | [] => ""
  | item :: rest => ", " ++ nested item (write item) ++ writeItems rest

end

end LiveExpr.EndUser
