import LiveExpr.FunctionName
import LiveExpr.Number.Binary64

/-!
# Expressions

The trees of the language.  Every node has an identifier, under which its values are
reported; a pattern has one too, and a step of a pipeline one more.
-/

namespace LiveExpr

/-- The identifier of a node of a program. -/
abbrev NodeId := UInt64

/-- The identifier of a toplevel: the main expression, or the body of a function. -/
abbrev ToplevelId := UInt64

/-- Whether a call is a step of a pipeline, and under which identifier its value is then
reported. -/
inductive PipePosition where
  | inPipe (id : NodeId)
  | notInPipe
deriving DecidableEq, Repr

/-- Whether a call puts a failure that it returns onto the error rail. -/
inductive RailUse where
  | rail
  | noRail
deriving DecidableEq, Repr

/-- The left side of a case. -/
inductive Pattern where
  | variable (id : NodeId) (name : String)
  | constructor (id : NodeId) (name : String) (args : List Pattern)
  | integer (id : NodeId) (value : Int)
  | bool (id : NodeId) (value : Bool)
  | character (id : NodeId) (text : String)
  | string (id : NodeId) (text : String)
  | float (id : NodeId) (value : Binary64)
  | null (id : NodeId)
  | blank (id : NodeId)

/-- An expression. -/
inductive Expr where
  | integer (id : NodeId) (value : Int)
  | float (id : NodeId) (value : Binary64)
  | string (id : NodeId) (text : String)
  | bool (id : NodeId) (value : Bool)
  | null (id : NodeId)
  /-- A character is one extended grapheme cluster. -/
  | character (id : NodeId) (text : String)
  /-- A blank is a hole that nobody has filled yet. -/
  | blank (id : NodeId)
  /-- An empty name binds nothing. -/
  | letIn (id : NodeId) (name : String) (value body : Expr)
  | conditional (id : NodeId) (condition thenCase elseCase : Expr)
  | lambda (id : NodeId) (parameters : List (NodeId × String)) (body : Expr)
  | fieldAccess (id : NodeId) (record : Expr) (field : String)
  | variable (id : NodeId) (name : String)
  | apply (id : NodeId) (callee : Expr) (args : List Expr) (position : PipePosition)
      (railUse : RailUse)
  | functionValue (id : NodeId) (name : FunctionName)
  | list (id : NodeId) (items : List Expr)
  /-- A field with an empty name is left out. -/
  | record (id : NodeId) (fields : List (String × Expr))
  | constructor (id : NodeId) (name : String) (args : List Expr)
  | matchCases (id : NodeId) (scrutinee : Expr) (cases : List (Pattern × Expr))
  /-- The new code runs only when the condition is true. -/
  | featureFlag (id : NodeId) (condition oldCode newCode : Expr)

namespace Pattern

/-- The identifier of a pattern. -/
def id : Pattern → NodeId
  | .variable id _ | .constructor id _ _ | .integer id _ | .bool id _ | .character id _
  | .string id _ | .float id _ | .null id | .blank id => id

mutual

/-- Whether two patterns are the same, floats compared as numbers. -/
def same : Pattern → Pattern → Bool
  | .variable i a, .variable j b => i == j && a == b
  | .constructor i a as, .constructor j b bs => i == j && a == b && sameArgs as bs
  | .integer i a, .integer j b => i == j && a == b
  | .bool i a, .bool j b => i == j && a == b
  | .character i a, .character j b => i == j && a == b
  | .string i a, .string j b => i == j && a == b
  | .float i a, .float j b => i == j && a.sameNumber b
  | .null i, .null j => i == j
  | .blank i, .blank j => i == j
  | _, _ => false

/-- Whether two lists of patterns are the same. -/
def sameArgs : List Pattern → List Pattern → Bool
  | [], [] => true
  | a :: as, b :: bs => same a b && sameArgs as bs
  | _, _ => false

end

end Pattern

namespace Expr

/-- The identifier of an expression. -/
def id : Expr → NodeId
  | .integer id _ | .float id _ | .string id _ | .bool id _ | .null id | .character id _
  | .blank id | .letIn id _ _ _ | .conditional id _ _ _ | .lambda id _ _
  | .fieldAccess id _ _ | .variable id _ | .apply id _ _ _ _ | .functionValue id _
  | .list id _ | .record id _ | .constructor id _ _ | .matchCases id _ _
  | .featureFlag id _ _ _ => id

/-- The name of an expression's kind. -/
def kindName : Expr → String
  | .integer .. => "Integer"
  | .float .. => "Float"
  | .string .. => "String"
  | .bool .. => "Bool"
  | .null .. => "Null"
  | .character .. => "Character"
  | .blank .. => "Blank"
  | .letIn .. => "Let"
  | .conditional .. => "If"
  | .lambda .. => "Lambda"
  | .fieldAccess .. => "FieldAccess"
  | .variable .. => "Variable"
  | .apply .. => "Apply"
  | .functionValue .. => "FnValue"
  | .list .. => "List"
  | .record .. => "Record"
  | .constructor .. => "Constructor"
  | .matchCases .. => "Match"
  | .featureFlag .. => "FeatureFlag"

mutual

/-- Whether two expressions are the same, floats compared as numbers. -/
def same : Expr → Expr → Bool
  | .integer i a, .integer j b => i == j && a == b
  | .float i a, .float j b => i == j && a.sameNumber b
  | .string i a, .string j b => i == j && a == b
  | .bool i a, .bool j b => i == j && a == b
  | .null i, .null j => i == j
  | .character i a, .character j b => i == j && a == b
  | .blank i, .blank j => i == j
  | .letIn i m a b, .letIn j n c d => i == j && m == n && same a c && same b d
  | .conditional i a b c, .conditional j d e f =>
    i == j && same a d && same b e && same c f
  | .lambda i ps a, .lambda j qs b => i == j && ps == qs && same a b
  | .fieldAccess i a m, .fieldAccess j b n => i == j && same a b && m == n
  | .variable i a, .variable j b => i == j && a == b
  | .apply i a as p r, .apply j b bs q s =>
    i == j && same a b && sameList as bs && p == q && r == s
  | .functionValue i a, .functionValue j b => i == j && a == b
  | .list i as, .list j bs => i == j && sameList as bs
  | .record i as, .record j bs => i == j && sameFields as bs
  | .constructor i m as, .constructor j n bs => i == j && m == n && sameList as bs
  | .matchCases i a as, .matchCases j b bs => i == j && same a b && sameCases as bs
  | .featureFlag i a b c, .featureFlag j d e f =>
    i == j && same a d && same b e && same c f
  | _, _ => false

/-- Whether two lists of expressions are the same. -/
def sameList : List Expr → List Expr → Bool
  | [], [] => true
  | a :: as, b :: bs => same a b && sameList as bs
  | _, _ => false

/-- Whether two lists of fields are the same. -/
def sameFields : List (String × Expr) → List (String × Expr) → Bool
  | [], [] => true
  | (m, a) :: as, (n, b) :: bs => m == n && same a b && sameFields as bs
  | _, _ => false

/-- Whether two lists of cases are the same. -/
def sameCases : List (Pattern × Expr) → List (Pattern × Expr) → Bool
  | [], [] => true
  | (p, a) :: as, (q, b) :: bs => p.same q && same a b && sameCases as bs
  | _, _ => false

end

end Expr

end LiveExpr
