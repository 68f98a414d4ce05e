import LiveExpr.Eval.Function

/-!
# Scripted built-ins

Built-ins that are put together for an experiment: what such a built-in does when it is
called is one action.
-/

namespace LiveExpr

/-- What a scripted built-in does. -/
inductive ScriptAction where
  /-- It returns a value. -/
  | constant (value : Value)
  /-- It returns one of its arguments. -/
  | argument (index : Nat)
  /-- It returns the list of its arguments. -/
  | arguments
  /-- It returns the number of its calls so far. -/
  | count
  | error (text : String)
  | wrongArguments
  | fake (value : Value)
  /-- It fails altogether. -/
  | fail (reason : Option String)
  /-- It applies its first argument. -/
  | apply (args : List Value) (position : PipePosition) (railUse : RailUse)

namespace ScriptAction

/-- The steps of an action. -/
def run (action : ScriptAction) (known : BuiltinContext) (args : List Value) :
    BuiltinStep :=
  match action with
  | .constant value => .finish (.ok value)
  | .argument index =>
    match args[index]? with
    | some value => .finish (.ok value)
    | none => .finish (.error .wrongArguments)
  | .arguments => .finish (.ok (.ofItems args))
  | .count => .finish (.ok (.int known.calls))
  | .error text => .finish (.error (.message text))
  | .wrongArguments => .finish (.error .wrongArguments)
  | .fake value => .finish (.error (.fake value))
  | .fail reason => .fail reason
  | .apply values position railUse =>
    match args.head?.bind Value.callable? with
    | some f => .apply f values position railUse fun value => .finish (.ok value)
    | none => .finish (.error .wrongArguments)

end ScriptAction

/-- A built-in with an action. -/
structure Script where
  name : FunctionName
  parameters : List (String × Ty)
  returnType : Ty
  previewability : Previewability
  deprecation : Deprecation
  action : ScriptAction

/-- The function of a scripted built-in; its calls are of interest. -/
def Script.toFunction (s : Script) : Function where
  name := s.name
  parameters := s.parameters.map fun (name, type) => ⟨name, type, ""⟩
  returnType := s.returnType
  description := ""
  previewability := s.previewability
  deprecation := s.deprecation
  implementation := .builtin ⟨s.action.run, true⟩

end LiveExpr
