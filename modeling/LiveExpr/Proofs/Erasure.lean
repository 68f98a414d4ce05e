import LiveExpr.Eval.Interpreter

/-!
# Erased evaluation

Evaluation as if nobody looked: there is no store, nothing is reported, and only the code
that is run is evaluated. Beside its value a run only has the impure built-ins that it
carries out. Every built-in is taken as a function of its arguments and the time.
-/

namespace LiveExpr

/-- An impure built-in that was carried out, with its arguments. -/
abbrev ImpureCall := FunctionName × List Value

/-- How a run ends, and the impure built-ins that it carried out, in order. -/
structure Effect (α : Type) where
  outcome : Outcome α
  calls : List ImpureCall

namespace Effect

variable {α β : Type}

/-- One run after another; a fault or lack of fuel ends both. -/
def andThen (run : Effect α) (next : α → Effect β) : Effect β :=
  match run with
  | ⟨.done value, calls⟩ => ⟨(next value).outcome, calls ++ (next value).calls⟩
  | ⟨.fault reason, calls⟩ => ⟨.fault reason, calls⟩
  | ⟨.outOfFuel, calls⟩ => ⟨.outOfFuel, calls⟩

instance : Monad Effect where
  pure value := ⟨.done value, []⟩
  bind := andThen

theorem bind_pure (run : Effect α) :
  run >>= pure = run
  := by
  obtain ⟨_ | _ | _, calls⟩ := run
  · change Effect.mk _ (calls ++ []) = _
    rw [List.append_nil]
    rfl
  · rfl
  · rfl

/-- The run that lacks fuel. -/
def outOfFuel : Effect α :=
  ⟨.outOfFuel, []⟩

/-- The run that ends with a fault. -/
def fault (reason : Option String) : Effect α :=
  ⟨.fault reason, []⟩

/-- A run whose fault is caught. -/
def caught (run : Effect α) : Effect (Except (Option String) α) :=
  match run with
  | ⟨.done value, calls⟩ => ⟨.done (.ok value), calls⟩
  | ⟨.fault reason, calls⟩ => ⟨.done (.error reason), calls⟩
  | ⟨.outOfFuel, calls⟩ => ⟨.outOfFuel, calls⟩

/-- A built-in is carried out, which leaves a trace only if it is impure. -/
def invoke (f : Function) (args : List Value) : Effect Unit :=
  ⟨.done (), if f.previewability = .impure then [(f.name, args)] else []⟩

end Effect

/-- What erased evaluation depends on beside the variables in scope. -/
structure Setting where
  toplevel : ToplevelId
  registry : Registry
  types : TypeTable
  /-- The time by the clock. -/
  now : Timestamp
  /-- What maps have in common in memory. -/
  sharing : Sharing

/-- The source of a fake value that a node makes. -/
def Setting.source (s : Setting) (id : NodeId) : Source :=
  .node s.toplevel id

namespace Erased

open Interpreter (wrap toRail builtinResult checkedResult)

mutual

/-- Evaluates an expression. -/
def eval : Nat → Setting → Scope → Expr → Effect Value
  | 0, _, _, _ => Effect.outOfFuel
  | fuel + 1, s, scope, e =>
    match e with
    | .blank id => pure (.incomplete (s.source id))
    | .integer _ n => pure (.int n)
    | .float _ x => pure (.float x)
    | .bool _ b => pure (.bool b)
    | .null _ => pure .null
    | .string _ text => pure (.ofText text)
    | .character id text =>
      match Value.ofCharacter text with
      | .ok value => pure value
      | .error error => pure (Message.invalidCharacter (s.source id) error)
    | .letIn _ name value body => do
      let value ← eval fuel s scope value
      if value.isErrorRail then pure value
      else eval fuel s (if name.isEmpty then scope else Fields.insert name value scope) body
    | .list _ items => do
      match ← evalItems fuel s scope items with
      | .ok values => pure (.ofItems values)
      | .error rail => pure rail
    | .record _ fields => do
      let pairs ← evalFields fuel s scope fields
      pure (.ofPairs pairs)
    | .variable id name =>
      match Fields.get? name scope with
      | some value => pure value
      | none => pure (Message.unboundVariable (s.source id) name)
    | .functionValue _ name => pure (.named name)
    | .fieldAccess id object field => do
      let value ← eval fuel s scope object
      match value with
      | .record fields => pure ((Fields.get? field fields).getD .null)
      | value =>
        if value.isFake then pure value else pure (Message.notARecord (s.source id) value)
    | .lambda _ parameters body => pure (.lambda parameters scope body)
    | .conditional _ condition thenCase elseCase => do
      let condition ← eval fuel s scope condition
      match condition with
      | .bool false | .null => eval fuel s scope elseCase
      | condition =>
        if condition.isFake then pure condition else eval fuel s scope thenCase
    | .featureFlag _ condition oldCode newCode => do
      let condition ← Effect.caught (eval fuel s scope condition)
      match condition with
      | .ok (.bool true) => eval fuel s scope newCode
      | _ => eval fuel s scope oldCode
    | .constructor id name args =>
      match name, args with
      | "Nothing", [] => pure .nothing
      | "Just", [arg] => do
        let value ← eval fuel s scope arg
        pure (wrap .just value)
      | "Ok", [arg] => do
        let value ← eval fuel s scope arg
        pure (wrap .ok value)
      | "Error", [arg] => do
        let value ← eval fuel s scope arg
        pure (wrap .error value)
      | name, _ =>
        if name = "Nothing" ∨ Matching.isUnary name then pure (.incomplete (s.source id))
        else pure (Message.invalidConstructor (s.source id) name)
    | .matchCases id scrutinee cases => do
      let value ← eval fuel s scope scrutinee
      let chosen ← evalCases fuel s scope value cases
      match chosen with
      | some result => pure result
      | none => if value.isFake then pure value else pure (.incomplete (s.source id))
    | .apply id callee args position railUse => do
      let callee ← eval fuel s scope callee
      let values ← evalArgs fuel s scope args
      applyValue fuel s id callee values position railUse

/-- The values of arguments. -/
def evalArgs : Nat → Setting → Scope → List Expr → Effect (List Value)
  | 0, _, _, _ => Effect.outOfFuel
  | _ + 1, _, _, [] => pure []
  | fuel + 1, s, scope, e :: rest => do
    let value ← eval fuel s scope e
    let values ← evalArgs fuel s scope rest
    pure (value :: values)

/-- The values of the items of a list without the incomplete ones, or the first value on
the error rail. -/
def evalItems : Nat → Setting → Scope → List Expr → Effect (Except Value (List Value))
  | 0, _, _, _ => Effect.outOfFuel
  | _ + 1, _, _, [] => pure (.ok [])
  | fuel + 1, s, scope, e :: rest => do
    let value ← eval fuel s scope e
    if value.isErrorRail then pure (.error value)
    else
      match ← evalItems fuel s scope rest with
      | .error rail => pure (.error rail)
      | .ok values => pure (.ok (if value.isIncomplete then values else value :: values))

/-- The values of the fields of a record, without those that have no name. -/
def evalFields : Nat → Setting → Scope → List (String × Expr) →
    Effect (List (String × Value))
  | 0, _, _, _ => Effect.outOfFuel
  | _ + 1, _, _, [] => pure []
  | fuel + 1, s, scope, (name, e) :: rest =>
    if name.isEmpty then evalFields fuel s scope rest
    else do
      let value ← eval fuel s scope e
      let pairs ← evalFields fuel s scope rest
      pure ((name, value) :: pairs)

/-- The value of the first case that matches. -/
def evalCases : Nat → Setting → Scope → Value → List (Pattern × Expr) →
    Effect (Option Value)
  | 0, _, _, _, _ => Effect.outOfFuel
  | _ + 1, _, _, _, [] => pure none
  | fuel + 1, s, scope, value, (pattern, body) :: rest =>
    let m := Matching.check s.toplevel value pattern
    if m.matched then do
      let result ← eval fuel s (m.extend scope) body
      pure (some result)
    else evalCases fuel s scope value rest

/-- Applies what the callee of a call evaluates to. -/
def applyValue : Nat → Setting → NodeId → Value → List Value → PipePosition → RailUse →
    Effect Value
  | 0, _, _, _, _, _, _ => Effect.outOfFuel
  | fuel + 1, s, id, callee, args, position, railUse =>
    match callee.callable? with
    | some f => applyCallable fuel s id f args position railUse
    | none =>
      match callee, position with
      | .incomplete _, .inPipe _ => pure (args.headD callee)
      | _, _ =>
        if callee.isFake then pure callee
        else pure (Message.notAFunction (s.source id) callee)

/-- Applies a function value. -/
def applyCallable : Nat → Setting → NodeId → Callable → List Value → PipePosition →
    RailUse → Effect Value
  | 0, _, _, _, _, _, _ => Effect.outOfFuel
  | fuel + 1, s, id, f, args, position, railUse =>
    match f with
    | .named name => call fuel s name id args position railUse
    | .lambda parameters scope body =>
      match args.find? fun value => value.isIncomplete || value.isErrorRail with
      | some value => pure value
      | none =>
        if parameters.length ≠ args.length then
          pure (Message.wrongLambdaCount (s.source id) parameters.length args.length)
        else
          eval fuel s (Fields.extend scope ((parameters.map Prod.snd).zip args)) body

/-- Calls a function by name. -/
def call : Nat → Setting → FunctionName → NodeId → List Value → PipePosition → RailUse →
    Effect Value
  | 0, _, _, _, _, _, _ => Effect.outOfFuel
  | fuel + 1, s, name, id, args, position, railUse =>
    match args.find? Value.isErrorRail with
    | some value => pure value
    | none =>
      match Assoc.get? name s.registry with
      | none => pure (Message.functionNotFound (s.source id) name)
      | some f =>
        if f.parameters.length ≠ args.length then
          pure (Message.wrongCount (s.source id) name f.parameters.length args.length)
        else
          match args.find? fun value => value.isIncomplete || value.isFailure with
          | some value =>
            match position, value with
            | .inPipe _, .incomplete _ => pure (args.headD value)
            | _, _ => pure value
          | none => do
            let result ← carryOut fuel s f id args
            match railUse with
            | .rail => pure (toRail (s.source id) result)
            | .noRail => pure result

/-- Carries out a function. -/
def carryOut : Nat → Setting → Function → NodeId → List Value → Effect Value
  | 0, _, _, _, _ => Effect.outOfFuel
  | fuel + 1, s, f, id, args =>
    match f.implementation with
    | .builtin b => do
      let result ← carryOutBuiltin fuel s f b id args
      pure (checkedResult s.types (s.source id) f result)
    | .written _ toplevel body =>
      match Typing.checkCall s.types f.parameterTypes args with
      | error :: errors =>
        pure (Message.parameterTypes (s.source id) f.name
          (TypeError.messages (error :: errors)))
      | [] => do
        let result ← carryOutBody fuel s f toplevel body args
        pure (checkedResult s.types (s.source id) f result)

/-- Carries out the body of a function; the error rail ends with it. -/
def carryOutBody : Nat → Setting → Function → ToplevelId → Expr → List Value →
    Effect Value
  | 0, _, _, _, _, _ => Effect.outOfFuel
  | fuel + 1, s, f, toplevel, body, args => do
    let scope := Fields.ofPairs ((f.parameters.map Parameter.name).zip args)
    let value ← eval fuel { s with toplevel } scope body
    pure value.offRail

/-- Carries out a built-in; a fault becomes an error. -/
def carryOutBuiltin : Nat → Setting → Function → Builtin → NodeId → List Value →
    Effect Value
  | 0, _, _, _, _, _ => Effect.outOfFuel
  | fuel + 1, s, f, b, id, args => do
    Effect.invoke f args
    let outcome ← Effect.caught (runSteps fuel s id (b.run ⟨s.now, s.sharing, 0⟩ args))
    pure (builtinResult (s.source id) f.name args outcome)

/-- Does the steps of a built-in. -/
def runSteps : Nat → Setting → NodeId → BuiltinStep → Effect (Except BuiltinError Value)
  | 0, _, _, _ => Effect.outOfFuel
  | fuel + 1, s, caller, step =>
    match step with
    | .finish result => pure result
    | .fail reason => Effect.fault reason
    | .apply f args position railUse next => do
      let value ← applyCallable fuel s caller f args position railUse
      runSteps fuel s caller (next value)

end

end Erased

end LiveExpr
