import LiveExpr.Eval.Function
import LiveExpr.TreeForm.Expr
import LiveExpr.TreeForm.Ty

/-!
# Definitions

The functions that a program defines, as they stand in its text: user functions, and
functions of packages.
-/

namespace LiveExpr

namespace Parameter

/-- The parameter that a tree states; the tree nests at most `depth` deep. -/
def ofTree? (depth : Nat) (j : RawJson) : Option Parameter := do
  match depth, ← j.fields? ["name", "typ", "description"] with
  | depth + 1, [some name, some type, description] =>
    some ⟨← name.text?, ← Ty.ofTree? depth type, ← RawJson.orElse "" RawJson.text? description⟩
  | _, _ => none

end Parameter

namespace Function

/-- The function that a user defines. -/
def ofUser (toplevel : ToplevelId) (name : String) (parameters : List Parameter)
    (returnType : Ty) (description : String) (body : Expr) : Function where
  name := .user name
  parameters
  returnType
  description
  previewability := .impure
  deprecation := .current
  implementation := .written .user toplevel body

/-- The function of a package. -/
def ofPackage (toplevel : ToplevelId) (name : FunctionName) (parameters : List Parameter)
    (returnType : Ty) (description : String) (deprecated : Bool) (body : Expr) :
    Function where
  name
  parameters
  returnType
  description
  previewability := .impure
  deprecation := if deprecated then .because "deprecated by its package" else .current
  implementation := .written .package toplevel body

/-- The user function that a tree states; the tree nests at most `depth` deep. -/
def userOfTree? (depth : Nat) (j : RawJson) : Option Function := do
  match depth, ← j.fields?
    ["tlid", "name", "parameters", "return_type", "description", "body"] with
  | depth + 1, [some toplevel, some name, parameters, some returnType, description,
      some body] =>
    some (.ofUser (← toplevel.id?) (← name.text?)
      (← RawJson.orElse [] (RawJson.list? Parameter.ofTree? depth) parameters)
      (← Ty.ofTree? depth returnType) (← RawJson.orElse "" RawJson.text? description)
      (← Expr.ofTree? depth body))
  | _, _ => none

/-- The package function that a tree states; the tree nests at most `depth` deep. -/
def packageOfTree? (depth : Nat) (j : RawJson) : Option Function := do
  match depth, ← j.fields?
    ["tlid", "name", "parameters", "return_type", "description", "deprecated", "body"] with
  | depth + 2, [some toplevel, some name, parameters, some returnType, description,
      deprecated, some body] =>
    some (.ofPackage (← toplevel.id?) (← FunctionName.readPackage? name)
      (← RawJson.orElse [] (RawJson.list? Parameter.ofTree? (depth + 1)) parameters)
      (← Ty.ofTree? (depth + 1) returnType) (← RawJson.orElse "" RawJson.text? description)
      (← RawJson.orElse false RawJson.bool? deprecated) (← Expr.ofTree? (depth + 1) body))
  | _, _ => none

end Function

end LiveExpr
