import LiveExpr.Assoc
import LiveExpr.Value.Equality

/-!
# Functions

The functions that a program can call: built-ins, and functions whose body is an
expression.  What a built-in does is given as data, step by step: it ends with a result,
fails altogether, or has a function value applied and goes on with the outcome.  So it
can reach the interpreter in one way only.
-/

namespace LiveExpr

/-- A parameter of a function. -/
structure Parameter where
  name : String
  type : Ty
  description : String

/-- What a preview may do with a function. -/
inductive Previewability where
  /-- Without effects, so that it may always run. -/
  | pure
  /-- With effects that do no harm when they are repeated. -/
  | repeatable
  /-- Never run by a preview, which shows recorded results only. -/
  | impure
deriving DecidableEq, Repr

/-- Whether a function should no longer be used. -/
inductive Deprecation where
  | current
  | replacedBy (name : FunctionName)
  | because (reason : String)
deriving DecidableEq, Repr

/-- A value that can be applied. -/
inductive Callable where
  | named (name : FunctionName)
  | lambda (parameters : List (NodeId × String)) (scope : Scope) (body : Expr)

/-- What of a value can be applied. -/
def Value.callable? : Value → Option Callable
  | .named name => some (.named name)
  | .lambda parameters scope body => some (.lambda parameters scope body)
  | _ => none

/-- Why a built-in has no result. -/
inductive BuiltinError where
  | wrongArguments
  | message (text : String)
  /-- A fake value that stands for the result. -/
  | fake (value : Value)

/-- What a built-in does next.  It applies functions from the node that calls it, with the
state of the run as it is: no built-in applies one from another node or after a change of
the state. -/
inductive BuiltinStep where
  | finish (result : Except BuiltinError Value)
  /-- It fails altogether, with a text that says why or without one. -/
  | fail (reason : Option String)
  /-- It has a function applied, and goes on with what comes of it. -/
  | apply (function : Callable) (args : List Value) (position : PipePosition)
      (railUse : RailUse) (next : Value → BuiltinStep)

/-- What a built-in may know beside its arguments.  The rest of the state of the run, such
as its mode, the functions, the types and the store, is left out: no built-in of the
standard library looks at it, and one that is scripted is only told the number of its
calls. -/
structure BuiltinContext where
  /-- The time by the clock. -/
  now : Timestamp
  /-- What maps have in common in memory. -/
  sharing : Sharing
  /-- The number of its calls so far, this one included. -/
  calls : Nat

/-- A function that is part of the system. -/
structure Builtin where
  run : BuiltinContext → List Value → BuiltinStep
  /-- Whether its calls are of interest to an observer of the run. -/
  observed : Bool

/-- Where a function that is written in the language comes from. -/
inductive Origin where
  | user
  | package
deriving DecidableEq, Repr

/-- How a function is carried out. -/
inductive Implementation where
  | builtin (b : Builtin)
  | written (origin : Origin) (toplevel : ToplevelId) (body : Expr)

/-- A function that can be called. -/
structure Function where
  name : FunctionName
  parameters : List Parameter
  returnType : Ty
  description : String
  previewability : Previewability
  deprecation : Deprecation
  implementation : Implementation

namespace Function

/-- Whether a function is part of the system. -/
def isBuiltin (f : Function) : Bool :=
  match f.implementation with
  | .builtin _ => true
  | _ => false

/-- The names and types of the parameters. -/
def parameterTypes (f : Function) : List (String × Ty) :=
  f.parameters.map fun p => (p.name, p.type)

/-- A built-in that only looks at its arguments, in the memory that they are in. -/
def ofMemory (name : FunctionName) (parameters : List (String × Ty)) (returnType : Ty)
    (description : String) (run : Sharing → List Value → Except BuiltinError Value) :
    Function where
  name
  parameters := parameters.map fun (name, type) => ⟨name, type, ""⟩
  returnType
  description
  previewability := .pure
  deprecation := .current
  implementation := .builtin ⟨fun known args => .finish (run known.sharing args), false⟩

/-- A built-in that only looks at its arguments as values. -/
def ofArguments (name : FunctionName) (parameters : List (String × Ty)) (returnType : Ty)
    (description : String) (run : List Value → Except BuiltinError Value) : Function :=
  ofMemory name parameters returnType description fun _ => run

end Function

/-- The functions of a program by name. -/
abbrev Registry := Assoc FunctionName Function

namespace Registry

/-- The registry with a further function, which takes the place of one of its name. -/
def add (registry : Registry) (f : Function) : Registry :=
  Assoc.set f.name f registry

/-- The registry with further functions. -/
def addAll (registry : Registry) (fs : List Function) : Registry :=
  fs.foldl add registry

/-- Whether a name is that of a function written in the language. -/
def IsWritten (registry : Registry) (name : FunctionName) : Prop :=
  ∃ f, Assoc.get? name registry = some f ∧ f.isBuiltin = false

/-- A function of a registry with further functions is one of them, or was there before. -/
theorem get?_addAll {registry : Registry} {fs : List Function} {name : FunctionName}
    {f : Function} (h : Assoc.get? name (registry.addAll fs) = some f) :
  f ∈ fs ∨ Assoc.get? name registry = some f
  := by
  induction fs generalizing registry with
  | nil => exact .inr h
  | cons g fs ih =>
    rcases ih h with hmem | hget
    · exact .inl (List.mem_cons_of_mem g hmem)
    · rw [add, Assoc.get?_set] at hget
      split at hget
      · obtain rfl := Option.some.inj hget
        exact .inl List.mem_cons_self
      · exact .inr hget

/-- Functions stay registered under their names. -/
theorem name_of_get?_addAll {registry : Registry} {fs : List Function}
    (h : ∀ name f, Assoc.get? name registry = some f → f.name = name)
    {name : FunctionName} {f : Function}
    (hf : Assoc.get? name (registry.addAll fs) = some f) :
  f.name = name
  := by
  induction fs generalizing registry with
  | nil => exact h name f hf
  | cons g fs ih =>
    apply ih _ hf
    intro name f hf
    rw [Registry.add, Assoc.get?_set] at hf
    split at hf
    · next hname =>
      obtain rfl := Option.some.inj hf
      exact hname
    · exact h name f hf

theorem not_isWritten_of_builtin {registry : Registry} {name : FunctionName} {f : Function}
    {b : Builtin} (hf : Assoc.get? name registry = some f)
    (hb : f.implementation = .builtin b) :
  ¬ registry.IsWritten name
  := by
  rintro ⟨g, hg, hwritten⟩
  obtain rfl := Option.some.inj (hf.symm.trans hg)
  rw [Function.isBuiltin, hb] at hwritten
  cases hwritten

end Registry

end LiveExpr
