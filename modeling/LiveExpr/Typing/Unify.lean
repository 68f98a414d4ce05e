import LiveExpr.Typing.Error
import LiveExpr.Value.Basic

/-!
# Checking values against types

The errors of a value where a type is declared.  Nothing is inferred: type variables hold
every value, fake values are let pass everywhere, and all errors are collected.  Main
functions: `unify` for a value, `checkCall` for the arguments of a call, and
`checkRecord` for the row of a table.
-/

namespace LiveExpr

/-- The record types that a program defines; of two with one name the later counts. -/
abbrev TypeTable := List UserType

namespace Typing

/-- The record type of a name. -/
def findType? (types : TypeTable) (name : TypeName) : Option UserType :=
  types.findRev? fun t => t.name == name

/-- Whether a type holds a value without a look at the parts of either. -/
def fits : Ty → Value → Bool
  | _, .incomplete _ | _, .failure _ _ | _, .errorRail _ => true
  | .variable _, _ => true
  | .int, .int _ => true
  | .float, .float _ => true
  | .bool, .bool _ => true
  | .null, .null => true
  | .str, .str _ => true
  | .char, .char _ => true
  | .date, .date _ => true
  | .password, .password _ => true
  | .uuid, .uuid _ => true
  | .bytes, .bytes _ => true
  | .db _, .db _ => true
  | .function _ _, .named _ => true
  | .function _ _, .lambda _ _ _ => true
  | .option _, .nothing => true
  | .response _, .redirect _ => true
  | _, _ => false

/-- A check of one value against a type. -/
abbrev Check := Ty → List TypeError

/-- The errors of a record with given columns, from the checks of its fields.  If the
names differ that is the one error; otherwise the errors of each column's field. -/
def checkColumns (checks : List (String × Check)) (columns : List (String × Ty)) :
    List TypeError :=
  let present := checks.map Prod.fst
  let declared := Fields.names (Fields.ofPairs columns)
  let missing := declared.filter (· ∉ present)
  let extra := present.filter (· ∉ declared)
  if missing.isEmpty && extra.isEmpty then
    columns.flatMap fun (name, type) =>
      match Fields.get? name checks with
      | some check => (check type).map (.within name)
      | none => []
  else [.atRoot (.fields missing extra)]

mutual

/-- The errors of a value where a type is declared. -/
def unify (types : TypeTable) : Value → Check
  | .list items, .list item => unifyItems types items item
  | .record fields, .dict value => unifyFields types fields value
  | .record fields, .record columns => checkColumns (fieldChecks types fields) columns
  | .record fields, .userType name =>
    match findType? types name with
    | some t => checkColumns (fieldChecks types fields) t.fields
    | none => [.atRoot (.unknownType name)]
  | .just value, .option type => unify types value type
  | .ok value, .result type _ => unify types value type
  | .error value, .result _ type => unify types value type
  | .response _ _ body, .response type => unify types body type
  | value, type =>
    if fits type value then [] else [.atRoot (.mismatch type value.typeOf)]

/-- The errors of the items of a list. -/
def unifyItems (types : TypeTable) : List Value → Check
  | [], _ => []
  | item :: rest, type => unify types item type ++ unifyItems types rest type

/-- The errors of the values of a dictionary. -/
def unifyFields (types : TypeTable) : List (String × Value) → Check
  | [], _ => []
  | (name, value) :: rest, type =>
    (unify types value type).map (.within name) ++ unifyFields types rest type

/-- The checks of the fields of a record. -/
def fieldChecks (types : TypeTable) : List (String × Value) → List (String × Check)
  | [] => []
  | (name, value) :: rest => (name, unify types value) :: fieldChecks types rest

end

/-- The errors of the arguments of a call, each under the name of its parameter. -/
def checkCall (types : TypeTable) (parameters : List (String × Ty)) (args : List Value) :
    List TypeError :=
  (parameters.zip args).flatMap fun ((name, type), arg) =>
    (unify types arg type).map (.within name)

/-- The errors of a row of a table; what is no record is refused. -/
def checkRecord (types : TypeTable) (columns : List (String × Ty)) : Value → List TypeError
  | .record fields => checkColumns (fieldChecks types fields) columns
  | value => [.atRoot (.mismatch (.record columns) value.typeOf)]

end Typing

end LiveExpr
