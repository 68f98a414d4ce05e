import LiveExpr.Eval.Message
import LiveExpr.Value.Equality

/-!
# Matching

Whether a pattern matches a value, which variables it binds, and what it reports.  A
pattern reports its nodes whether it matches or not.  Main statement:
`boundNames_of_matched`, a pattern that matches binds its variables.
-/

namespace LiveExpr

/-- What comes of matching a value with a pattern. -/
structure Matching where
  matched : Bool
  /-- The variables that are bound. -/
  bindings : List (String × Value)
  /-- The nodes of the pattern with the values that they are reported with. -/
  reports : List (NodeId × Value)

namespace Matching

/-- Matches a value with a literal. -/
def literal (value : Value) (id : NodeId) (expected : Value) : Matching :=
  ⟨value.same expected, [], [(id, expected)]⟩

/-- A pattern that cannot match, and is reported with a value. -/
def refuted (id : NodeId) (value : Value) : Matching :=
  ⟨false, [], [(id, value)]⟩

/-- The payload of a value under a constructor with one argument. -/
def payload? (constructor : String) (value : Value) : Option Value :=
  match constructor, value with
  | "Just", .just value | "Ok", .ok value | "Error", .error value => some value
  | _, _ => none

/-- Whether a name is that of a constructor with one argument. -/
def isUnary (constructor : String) : Bool :=
  constructor = "Just" ∨ constructor = "Ok" ∨ constructor = "Error"

/-- Matches a value with a pattern of the code of a toplevel. -/
def check (toplevel : ToplevelId) (value : Value) : Pattern → Matching
  | .integer id n => literal value id (.int n)
  | .bool id b => literal value id (.bool b)
  | .string id text => literal value id (.ofText text)
  | .float id x => literal value id (.float x)
  | .null id => literal value id .null
  | .character id text =>
    match Value.ofCharacter text with
    | .ok expected => literal value id expected
    | .error e => refuted id (Message.invalidCharacter (.node toplevel id) e)
  | .variable id name =>
    if value.isFake then refuted id value else ⟨true, [(name, value)], [(id, value)]⟩
  | .blank id => refuted id (.incomplete (.node toplevel id))
  | .constructor id name args =>
    let hole := Value.incomplete (.node toplevel id)
    if name = "Nothing" then
      if args.isEmpty then literal value id .nothing else refuted id hole
    else if isUnary name then
      match args with
      | [arg] =>
        match payload? name value with
        | some inner =>
          let m := check toplevel inner arg
          { m with reports := (id, value) :: m.reports }
        | none =>
          let m := check toplevel hole arg
          ⟨false, m.bindings, m.reports ++ [(id, hole)]⟩
      | _ => refuted id hole
    else refuted id (Message.invalidConstructor (.node toplevel id) name)

/-- The variables in scope under a pattern. -/
def extend (m : Matching) (scope : Scope) : Scope :=
  Fields.extend scope m.bindings

end Matching

namespace Pattern

mutual

/-- The names of the variables of a pattern. -/
def boundNames : Pattern → List String
  | .variable _ name => [name]
  | .constructor _ _ args => namesOfList args
  | _ => []

/-- The names of the variables of patterns. -/
def namesOfList : List Pattern → List String
  | [] => []
  | pattern :: rest => boundNames pattern ++ namesOfList rest

end

end Pattern

/-- A pattern that matches binds its variables. -/
theorem Matching.boundNames_of_matched {toplevel : ToplevelId} {value : Value}
    {pattern : Pattern} (h : (check toplevel value pattern).matched = true) :
  ∀ name ∈ pattern.boundNames, name ∈ (check toplevel value pattern).bindings.map Prod.fst
  := by
  fun_induction check toplevel value pattern with
  | case1 | case2 | case3 | case4 | case5 | case6 => intro name hname; cases hname
  | case7 | case8 | case10 | case12 | case14 | case15 | case16 => cases h
  | case9 value id name => exact fun _ hname => hname
  | case11 _ _ _ hargs =>
    intro name hname
    rw [List.isEmpty_iff.mp hargs] at hname
    cases hname
  | case13 _ _ _ _ _ _ _ _ _ ih =>
    intro name hname
    rw [Pattern.boundNames, Pattern.namesOfList, Pattern.namesOfList, List.append_nil] at hname
    exact ih h name hname

end LiveExpr
