import LiveExpr.Eval.Matching
import Mathlib.Tactic.Common

/-!
# Nodes

The nodes of an expression that are evaluated as such: all but the function values that
are called directly. Then the variables that an expression needs, and the scopes that bind
them.
-/

namespace LiveExpr

namespace Expr

/-- The name of the function that a node calls directly. -/
def directCallee? : Expr → Option FunctionName
  | .apply _ (.functionValue _ name) _ _ _ => some name
  | _ => none

mutual

/-- The nodes of an expression without the function values that it calls directly. -/
def nodes (e : Expr) : List Expr :=
  e :: match e with
  | .letIn _ _ value body => nodes value ++ nodes body
  | .conditional _ condition thenCase elseCase =>
    nodes condition ++ (nodes thenCase ++ nodes elseCase)
  | .lambda _ _ body => nodes body
  | .fieldAccess _ object _ => nodes object
  | .apply _ callee args _ _ =>
    (if e.directCallee?.isSome then [] else nodes callee) ++ nodesOfList args
  | .list _ items => nodesOfList items
  | .record _ fields => nodesOfFields fields
  | .constructor _ _ args => nodesOfList args
  | .matchCases _ scrutinee cases => nodes scrutinee ++ nodesOfCases cases
  | .featureFlag _ condition oldCode newCode =>
    nodes condition ++ (nodes oldCode ++ nodes newCode)
  | _ => []

/-- The nodes of expressions. -/
def nodesOfList : List Expr → List Expr
  | [] => []
  | e :: rest => nodes e ++ nodesOfList rest

/-- The nodes of the fields of a record. -/
def nodesOfFields : List (String × Expr) → List Expr
  | [] => []
  | (_, e) :: rest => nodes e ++ nodesOfFields rest

/-- The nodes of the bodies of cases. -/
def nodesOfCases : List (Pattern × Expr) → List Expr
  | [] => []
  | (_, body) :: rest => nodes body ++ nodesOfCases rest

end

theorem self_mem_nodes (e : Expr) :
  e ∈ e.nodes
  := by
  unfold nodes
  exact List.mem_cons_self

/-- The identifier of a node that is a call. -/
def callId? : Expr → Option NodeId
  | .apply id _ _ _ _ => some id
  | _ => none

/-- The identifiers of the calls among some nodes. -/
def callIds (nodes : List Expr) : List NodeId :=
  nodes.filterMap callId?

/-- The identifier of the callee of a node, unless that is a function value. -/
def calleeId? : Expr → Option NodeId
  | .apply _ (.functionValue _ _) _ _ _ => none
  | .apply _ callee _ _ _ => some callee.id
  | _ => none

end Expr

/-! ### Variables -/

namespace Expr

mutual

/-- Whether every variable of an expression is among some names or bound in it. -/
@[simp]
def isClosedUnder (names : List String) : Expr → Bool
  | .letIn _ name value body =>
    isClosedUnder names value
      && isClosedUnder (if name.isEmpty then names else name :: names) body
  | .conditional _ condition thenCase elseCase =>
    isClosedUnder names condition && isClosedUnder names thenCase
      && isClosedUnder names elseCase
  | .lambda _ parameters body => isClosedUnder (parameters.map Prod.snd ++ names) body
  | .fieldAccess _ object _ => isClosedUnder names object
  | .variable _ name => name ∈ names
  | .apply _ callee args _ _ => isClosedUnder names callee && areClosedUnder names args
  | .list _ items => areClosedUnder names items
  | .record _ fields => fieldsAreClosedUnder names fields
  | .constructor _ _ args => areClosedUnder names args
  | .matchCases _ scrutinee cases =>
    isClosedUnder names scrutinee && casesAreClosedUnder names cases
  | .featureFlag _ condition oldCode newCode =>
    isClosedUnder names condition && isClosedUnder names oldCode
      && isClosedUnder names newCode
  | _ => true

/-- Whether every variable of expressions is among some names or bound in them. -/
@[simp]
def areClosedUnder (names : List String) : List Expr → Bool
  | [] => true
  | e :: rest => isClosedUnder names e && areClosedUnder names rest

/-- Whether every variable of fields is among some names or bound in them. -/
@[simp]
def fieldsAreClosedUnder (names : List String) : List (String × Expr) → Bool
  | [] => true
  | (_, e) :: rest => isClosedUnder names e && fieldsAreClosedUnder names rest

/-- Whether every variable of cases is among some names or bound in them. -/
@[simp]
def casesAreClosedUnder (names : List String) : List (Pattern × Expr) → Bool
  | [] => true
  | (pattern, body) :: rest =>
    isClosedUnder (pattern.boundNames ++ names) body && casesAreClosedUnder names rest

end

end Expr

/-- Whether a scope binds names. -/
def Scope.Binds (scope : Scope) (names : List String) : Prop :=
  ∀ name ∈ names, (Fields.get? name scope).isSome = true

namespace Scope

variable {scope : Scope} {names : List String}

/-- A scope binds the names that stand in it. -/
theorem binds_names (scope : Scope) :
  scope.Binds (Fields.names scope)
  := by
  intro name hname
  rw [Fields.names] at hname
  induction scope with
  | nil => cases hname
  | cons pair rest ih =>
    obtain ⟨key, value⟩ := pair
    rw [Fields.get?]
    split
    · rfl
    · next hne =>
      rcases List.mem_cons.mp hname with rfl | hmem
      · exact absurd rfl hne
      · exact ih hmem

theorem Binds.insert (h : scope.Binds names) (name : String) (value : Value) :
  Scope.Binds (Fields.insert name value scope) (name :: names)
  := by
  intro other hother
  rw [Fields.get?_insert]
  split
  · rfl
  · next hne =>
    rcases List.mem_cons.mp hother with rfl | hmem
    · exact absurd rfl hne
    · exact h other hmem

theorem Binds.mono {fewer : List String} (h : scope.Binds names)
    (hsub : ∀ name ∈ fewer, name ∈ names) :
  scope.Binds fewer
  := by
  intro name hname
  exact h name (hsub name hname)

theorem Binds.extend (h : scope.Binds names) (pairs : List (String × Value)) :
  Scope.Binds (Fields.extend scope pairs) (pairs.map Prod.fst ++ names)
  := by
  induction pairs generalizing scope names with
  | nil => exact h
  | cons pair rest ih =>
    apply (ih (h.insert pair.1 pair.2)).mono
    intro name hname
    simp only [List.map_cons, List.cons_append, List.mem_cons, List.mem_append] at hname ⊢
    tauto

end Scope

end LiveExpr
