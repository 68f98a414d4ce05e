import LiveExpr.Expr
import LiveExpr.Number.Layout
import LiveExpr.TreeForm.Name

/-!
# Expressions as trees

The JSON form of patterns and expressions.  Each kind holds its identifier and its parts
in an array; integers are held as strings of digits, so that none is too great.
-/

namespace LiveExpr

/-- The number of a float; what is not finite has none. -/
def Json.ofFloat (x : Binary64) : Json :=
  if x.isFinite then .number (NumberLayout.json.numeral x) else .null

/-- The string of an integer's digits. -/
def Json.ofDigits (n : Int) : Json :=
  .string (toString n)

namespace PipePosition

/-- The position that a tree states; the tree nests at most `depth` deep. -/
def ofTree? (depth : Nat) (j : RawJson) : Option PipePosition :=
  match depth, j.choice? with
  | _, some ("NotInPipe", none) => some .notInPipe
  | _ + 1, some ("NotInPipe", some .null) => some .notInPipe
  | _ + 1, some ("InPipe", some id) => id.id?.map .inPipe
  | _, _ => none

/-- The tree of a position. -/
def toTree : PipePosition → Json
  | .notInPipe => .string "NotInPipe"
  | .inPipe id => .tagged "InPipe" (.ofId id)

end PipePosition

namespace RailUse

/-- The use of the rail that a tree states; the tree nests at most `depth` deep. -/
def ofTree? (depth : Nat) (j : RawJson) : Option RailUse :=
  match depth, j.choice? with
  | _, some ("Rail", none) | _ + 1, some ("Rail", some .null) => some .rail
  | _, some ("NoRail", none) | _ + 1, some ("NoRail", some .null) => some .noRail
  | _, _ => none

/-- The tree of a use of the rail. -/
def toTree : RailUse → Json
  | .rail => .string "Rail"
  | .noRail => .string "NoRail"

end RailUse

namespace Pattern

/-- The pattern that a tree states; the tree nests at most `depth` deep. -/
def ofTree? : Nat → RawJson → Option Pattern
  | depth + 1, j =>
    match j.choice? with
    | some ("Null", some id) => id.id?.map .null
    | some ("Blank", some id) => id.id?.map .blank
    | some (tag, some (.array parts)) =>
      match depth with
      | 0 => none
      | depth + 1 =>
        match tag, parts with
        | "Variable", [id, name] => do some (.variable (← id.id?) (← name.text?))
        | "Integer", [id, value] => do some (.integer (← id.id?) (← value.integer?))
        | "Bool", [id, value] => do some (.bool (← id.id?) (← value.bool?))
        | "Character", [id, text] => do some (.character (← id.id?) (← text.text?))
        | "String", [id, text] => do some (.string (← id.id?) (← text.text?))
        | "Float", [id, value] => do some (.float (← id.id?) (← value.float?))
        | "Constructor", [id, name, .array args] =>
          match depth with
          | 0 => none
          | depth + 1 => do
            some (.constructor (← id.id?) (← name.text?) (← args.mapM (ofTree? depth)))
        | _, _ => none
    | _ => none
  | 0, _ => none

mutual

/-- The tree of a pattern. -/
def toTree : Pattern → Json
  | .variable id name => .tagged "Variable" (.array [.ofId id, .string name])
  | .constructor id name args =>
    .tagged "Constructor" (.array [.ofId id, .string name, .array (toTrees args)])
  | .integer id value => .tagged "Integer" (.array [.ofId id, .ofDigits value])
  | .bool id value => .tagged "Bool" (.array [.ofId id, .bool value])
  | .character id text => .tagged "Character" (.array [.ofId id, .string text])
  | .string id text => .tagged "String" (.array [.ofId id, .string text])
  | .float id value => .tagged "Float" (.array [.ofId id, .ofFloat value])
  | .null id => .tagged "Null" (.ofId id)
  | .blank id => .tagged "Blank" (.ofId id)

/-- The trees of a list of patterns. -/
def toTrees : List Pattern → List Json
  | [] => []
  | pattern :: rest => toTree pattern :: toTrees rest

end

end Pattern

namespace Expr

/-- The parameter that a tree states: an identifier and a name. -/
def parameterOfTree? : RawJson → Option (NodeId × String)
  | .array [id, name] => do some (← id.id?, ← name.text?)
  | _ => none

/-- The field that a tree states, its expression read by the given reader. -/
def readField? (read : RawJson → Option Expr) : RawJson → Option (String × Expr)
  | .array [name, value] => do some (← name.text?, ← read value)
  | _ => none

/-- The case that a tree states, its parts read by the given readers. -/
def readCase? (readPattern : RawJson → Option Pattern) (read : RawJson → Option Expr) :
    RawJson → Option (Pattern × Expr)
  | .array [pattern, body] => do some (← readPattern pattern, ← read body)
  | _ => none

/-- The expression that a tree states; the tree nests at most `depth` deep. -/
def ofTree? : Nat → RawJson → Option Expr
  | depth + 1, j =>
    match j.choice? with
    | some ("Null", some id) => id.id?.map .null
    | some ("Blank", some id) => id.id?.map .blank
    | some (tag, some (.array parts)) =>
      match depth with
      | 0 => none
      | depth + 1 =>
        match tag, parts with
        | "Integer", [id, value] => do some (.integer (← id.id?) (← value.integer?))
        | "Float", [id, value] => do some (.float (← id.id?) (← value.float?))
        | "String", [id, text] => do some (.string (← id.id?) (← text.text?))
        | "Bool", [id, value] => do some (.bool (← id.id?) (← value.bool?))
        | "Character", [id, text] => do some (.character (← id.id?) (← text.text?))
        | "Let", [id, name, value, body] => do
          some (.letIn (← id.id?) (← name.text?) (← ofTree? depth value)
            (← ofTree? depth body))
        | "If", [id, condition, thenCase, elseCase] => do
          some (.conditional (← id.id?) (← ofTree? depth condition)
            (← ofTree? depth thenCase) (← ofTree? depth elseCase))
        | "Lambda", [id, .array parameters, body] => do
          let body ← ofTree? depth body
          let parameters ← match depth with
            | 0 => none
            | 1 => if parameters.isEmpty then some [] else none
            | _ + 2 => parameters.mapM parameterOfTree?
          some (.lambda (← id.id?) parameters body)
        | "FieldAccess", [id, object, field] => do
          some (.fieldAccess (← id.id?) (← ofTree? depth object) (← field.text?))
        | "Variable", [id, name] => do some (.variable (← id.id?) (← name.text?))
        | "Apply", [id, callee, .array args, position, railUse] => do
          let callee ← ofTree? depth callee
          let position ← PipePosition.ofTree? depth position
          let railUse ← RailUse.ofTree? depth railUse
          match depth with
          | 0 => none
          | depth + 1 => do
            some (.apply (← id.id?) callee (← args.mapM (ofTree? depth)) position railUse)
        | "FnValue", [id, name] => do
          some (.functionValue (← id.id?) (← FunctionName.ofTree? depth name))
        | "List", [id, .array items] =>
          match depth with
          | 0 => none
          | depth + 1 => do some (.list (← id.id?) (← items.mapM (ofTree? depth)))
        | "Record", [id, .array fields] =>
          match depth with
          | 0 => none
          | 1 => if fields.isEmpty then id.id?.map (.record · []) else none
          | depth + 2 => do
            some (.record (← id.id?) (← fields.mapM (readField? (ofTree? depth))))
        | "Constructor", [id, name, .array args] =>
          match depth with
          | 0 => none
          | depth + 1 => do
            some (.constructor (← id.id?) (← name.text?) (← args.mapM (ofTree? depth)))
        | "Match", [id, scrutinee, .array cases] => do
          let scrutinee ← ofTree? depth scrutinee
          match depth with
          | 0 => none
          | 1 => if cases.isEmpty then id.id?.map (.matchCases · scrutinee []) else none
          | depth + 2 => do
            some (.matchCases (← id.id?) scrutinee
              (← cases.mapM (readCase? (Pattern.ofTree? depth) (ofTree? depth))))
        | "FeatureFlag", [id, condition, oldCode, newCode] => do
          some (.featureFlag (← id.id?) (← ofTree? depth condition)
            (← ofTree? depth oldCode) (← ofTree? depth newCode))
        | _, _ => none
    | _ => none
  | 0, _ => none

/-- The tree of a parameter. -/
def parameterTree (parameter : NodeId × String) : Json :=
  .array [.ofId parameter.1, .string parameter.2]

mutual

/-- The tree of an expression. -/
def toTree : Expr → Json
  | .integer id value => .tagged "Integer" (.array [.ofId id, .ofDigits value])
  | .float id value => .tagged "Float" (.array [.ofId id, .ofFloat value])
  | .string id text => .tagged "String" (.array [.ofId id, .string text])
  | .bool id value => .tagged "Bool" (.array [.ofId id, .bool value])
  | .null id => .tagged "Null" (.ofId id)
  | .character id text => .tagged "Character" (.array [.ofId id, .string text])
  | .blank id => .tagged "Blank" (.ofId id)
  | .letIn id name value body =>
    .tagged "Let" (.array [.ofId id, .string name, toTree value, toTree body])
  | .conditional id condition thenCase elseCase =>
    .tagged "If" (.array [.ofId id, toTree condition, toTree thenCase, toTree elseCase])
  | .lambda id parameters body =>
    .tagged "Lambda"
      (.array [.ofId id, .array (parameters.map parameterTree), toTree body])
  | .fieldAccess id object field =>
    .tagged "FieldAccess" (.array [.ofId id, toTree object, .string field])
  | .variable id name => .tagged "Variable" (.array [.ofId id, .string name])
  | .apply id callee args position railUse =>
    .tagged "Apply" (.array [.ofId id, toTree callee, .array (toTrees args),
      position.toTree, railUse.toTree])
  | .functionValue id name => .tagged "FnValue" (.array [.ofId id, name.toTree])
  | .list id items => .tagged "List" (.array [.ofId id, .array (toTrees items)])
  | .record id fields => .tagged "Record" (.array [.ofId id, .array (fieldTrees fields)])
  | .constructor id name args =>
    .tagged "Constructor" (.array [.ofId id, .string name, .array (toTrees args)])
  | .matchCases id scrutinee cases =>
    .tagged "Match" (.array [.ofId id, toTree scrutinee, .array (caseTrees cases)])
  | .featureFlag id condition oldCode newCode =>
    .tagged "FeatureFlag"
      (.array [.ofId id, toTree condition, toTree oldCode, toTree newCode])

/-- The trees of a list of expressions. -/
def toTrees : List Expr → List Json
  | [] => []
  | e :: rest => toTree e :: toTrees rest

/-- The trees of fields. -/
def fieldTrees : List (String × Expr) → List Json
  | [] => []
  | (name, value) :: rest => .array [.string name, toTree value] :: fieldTrees rest

/-- The trees of cases. -/
def caseTrees : List (Pattern × Expr) → List Json
  | [] => []
  | (pattern, body) :: rest => .array [pattern.toTree, toTree body] :: caseTrees rest

end

end Expr

end LiveExpr
