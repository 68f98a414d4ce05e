import LiveExpr.Expr
import LiveExpr.Fields
import LiveExpr.Text.Grapheme
import LiveExpr.Text.Normal
import LiveExpr.Text.Quoted
import LiveExpr.Time.Timestamp
import LiveExpr.Ty
import LiveExpr.Uuid

/-!
# Values

What expressions evaluate to.  Beside data there are three kinds of fake values, which
carry control flow: an incomplete value stands for what nobody has filled in, an error
for what went wrong, and the error rail for a failure on its way to the end of the
function.  Texts are held in Normalization Form C, and a list or a record is replaced by
a fake value that would have to stand in it.
-/

namespace LiveExpr

/-- Where a fake value comes from. -/
inductive Source where
  | unknown
  | node (toplevel : ToplevelId) (id : NodeId)
deriving DecidableEq, Repr

/-- A value. -/
inductive Value where
  | int (n : Int)
  | float (x : Binary64)
  | bool (b : Bool)
  | null
  | char (text : String)
  | str (text : String)
  | list (items : List Value)
  | record (fields : List (String × Value))
  | date (moment : Timestamp)
  | password (secret : List UInt8)
  | uuid (id : Uuid)
  | bytes (content : List UInt8)
  | db (name : String)
  | just (value : Value)
  | nothing
  | ok (value : Value)
  | error (value : Value)
  | redirect (url : String)
  | response (code : Int) (headers : List (String × String)) (body : Value)
  | named (name : FunctionName)
  | lambda (parameters : List (NodeId × String)) (scope : List (String × Value))
      (body : Expr)
  | incomplete (source : Source)
  | failure (source : Source) (message : String)
  | errorRail (value : Value)

/-- The variables in scope, with their values. -/
abbrev Scope := Fields Value

namespace Value

/-! ### Kinds -/

/-- Whether a value carries control flow and no data. -/
def isFake : Value → Bool
  | .incomplete _ | .failure _ _ | .errorRail _ => true
  | _ => false

def isIncomplete : Value → Bool
  | .incomplete _ => true
  | _ => false

def isErrorRail : Value → Bool
  | .errorRail _ => true
  | _ => false

def isFailure : Value → Bool
  | .failure _ _ => true
  | _ => false

/-- A value without the error rail that it may stand on. -/
def offRail : Value → Value
  | .errorRail value => value
  | value => value

/-- The text of a string. -/
def asText? : Value → Option String
  | .str text => some text
  | _ => none

/-- The items of a list. -/
def asItems? : Value → Option (List Value)
  | .list items => some items
  | _ => none

/-- The fields of a record. -/
def asFields? : Value → Option (Fields Value)
  | .record fields => some fields
  | _ => none

/-! ### Construction -/

/-- Why a text is no character. -/
structure CharacterError where
  text : String
  count : Nat
deriving DecidableEq, Repr

/-- The wording of the error. -/
def CharacterError.message (e : CharacterError) : String :=
  s!"a character must be exactly one grapheme cluster, got {e.count} in "
    ++ Text.quoted e.text

/-- The string of a text. -/
def ofText (text : String) : Value :=
  .str (Text.nfc text)

/-- The character of a text that is one grapheme cluster. -/
def ofCharacter (text : String) : Except CharacterError Value :=
  let form := Text.nfc text
  let count := Text.clusterCount form
  if count = 1 then .ok (.char form) else .error ⟨text, count⟩

/-- The list of some items; the first item on the error rail stands for all of it. -/
def ofItems (items : List Value) : Value :=
  match items.find? isErrorRail with
  | some item => item
  | none => .list items

/-- The record of some pairs, of which the last of a name counts; the first fake value
stands for all of it. -/
def ofPairs (pairs : List (String × Value)) : Value :=
  match pairs.find? fun pair => pair.2.isFake with
  | some (_, value) => value
  | none => .record (Fields.ofPairs pairs)

/-- The date of a moment, to the second. -/
def ofMoment (moment : Timestamp) : Value :=
  .date moment.truncate

/-- The option of a value that may be missing. -/
def ofOption : Option Value → Value
  | some value => .just value
  | none => .nothing

/-! ### Types -/

mutual

/-- The type that a value has.  A list has the type of its first item, and `'a` stands
for what the value does not tell. -/
def typeOf : Value → Ty
  | .int _ => .int
  | .float _ => .float
  | .bool _ => .bool
  | .null => .null
  | .char _ => .char
  | .str _ => .str
  | .list items => .list (firstType items)
  | .record fields => .record (fieldTypes fields)
  | .date _ => .date
  | .password _ => .password
  | .uuid _ => .uuid
  | .bytes _ => .bytes
  | .db _ => .db .any
  | .just value => .option (typeOf value)
  | .nothing => .option .any
  | .ok value => .result (typeOf value) .any
  | .error value => .result .any (typeOf value)
  | .redirect _ => .response .null
  | .response _ _ body => .response (typeOf body)
  | .named _ | .lambda _ _ _ => .function [] .any
  | .incomplete _ => .incomplete
  | .failure _ _ => .error
  | .errorRail _ => .errorRail

/-- The type of the first item of a list. -/
def firstType : List Value → Ty
  | [] => .any
  | item :: _ => typeOf item

/-- The names of fields with the types of their values. -/
def fieldTypes : List (String × Value) → List (String × Ty)
  | [] => []
  | (name, value) :: rest => (name, typeOf value) :: fieldTypes rest

end

/-- The short name of a value's type. -/
def typeName (value : Value) : String :=
  value.typeOf.typeName

end Value

end LiveExpr
