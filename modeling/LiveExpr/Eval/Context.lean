import LiveExpr.Codec.Hashable
import LiveExpr.Eval.Function
import LiveExpr.Eval.Trace
import LiveExpr.Typing.Unify

/-!
# Contexts

What evaluation depends on beside the variables in scope.  A program runs for real, for
its effects, or in preview, to show values while it is written: then impure functions are
not called, recorded results stand in for calls, and what is missing is incomplete and no
error.
-/

namespace LiveExpr

/-- How effects are treated. -/
inductive Mode where
  | real
  | preview
deriving DecidableEq, Repr

namespace Mode

/-- Whether impure functions may run. -/
def allowsImpureCalls (mode : Mode) : Bool :=
  mode == .real

/-- Whether an unbound variable is incomplete and no error. -/
def unboundIsIncomplete (mode : Mode) : Bool :=
  mode == .preview

/-- Whether recorded results stand in for calls. -/
def replaysResults (mode : Mode) : Bool :=
  mode == .preview

end Mode

/-- A call under way: the function, and the node that calls it. -/
structure CallFrame where
  name : FunctionName
  caller : NodeId
deriving DecidableEq, Repr

/-- The calls under way, the innermost first. -/
abbrev CallStack := List CallFrame

namespace CallStack

/-- The outermost call of a function. -/
def outerCall? (stack : CallStack) (name : FunctionName) : Option CallFrame :=
  stack.findRev? fun frame => frame.name == name

/-- The node that made the innermost call. -/
def caller? (stack : CallStack) : Option NodeId :=
  stack.head?.map CallFrame.caller

/-- The names of the functions under way. -/
def names (stack : CallStack) : List FunctionName :=
  stack.map CallFrame.name

theorem names_cons {frame : CallFrame} {stack : CallStack} :
  names (frame :: stack) = frame.name :: stack.names
  := rfl

/-- A function has an outermost call if it is under way. -/
theorem outerCall?_eq_none {stack : CallStack} {name : FunctionName} :
  stack.outerCall? name = none ↔ name ∉ stack.names
  := by
  rw [outerCall?, List.findRev?_eq_find?_reverse, List.find?_eq_none]
  simp [names]

end CallStack

/-- What evaluation depends on beside the variables in scope. -/
structure Context where
  mode : Mode
  /-- The version of the hash that results are recorded under. -/
  hashVersion : UInt32
  /-- The toplevel whose code is evaluated. -/
  toplevel : ToplevelId
  registry : Registry
  types : TypeTable
  stack : CallStack
  /-- Whether the code is really run, and not only looked at. -/
  onPath : Bool
  /-- What maps have in common in memory when a built-in is carried out, by the mode and by
  the number of those that were carried out in it before. -/
  sharing : Mode → Nat → Sharing

namespace Context

/-- The context in which evaluation starts, with maps that have nothing in common. -/
def start (mode : Mode) (hashVersion : UInt32) (toplevel : ToplevelId)
    (registry : Registry) (types : TypeTable) : Context where
  mode
  hashVersion
  toplevel
  registry
  types
  stack := []
  onPath := true
  sharing _ _ := .nothing

/-- The source of a fake value that a node makes. -/
def source (c : Context) (id : NodeId) : Source :=
  .node c.toplevel id

/-- The context for a look at code that is not run. -/
def lookAside (c : Context) : Context :=
  { c with mode := .preview, onPath := false }

/-- The context inside a call. -/
def inCall (c : Context) (name : FunctionName) (caller : NodeId) : Context :=
  { c with stack := ⟨name, caller⟩ :: c.stack }

/-- The context inside the code of a toplevel. -/
def inToplevel (c : Context) (toplevel : ToplevelId) : Context :=
  { c with toplevel }

/-- The site of a call. -/
def site (c : Context) (name : FunctionName) (caller : NodeId) : CallSite :=
  ⟨c.toplevel, name, caller⟩

/-- The hash of the arguments of a call; without one, no result is recorded. -/
def argumentHash? (c : Context) (args : List Value) : Option String :=
  (Hashable.hash c.hashVersion args).toOption

end Context

end LiveExpr
