import LiveExpr.Eval.Matching
import LiveExpr.Eval.Run

/-!
# The interpreter

Evaluation of expressions, application of function values and calls of functions.  Each
node is reported with its value.  Where control takes one branch, the others are looked
at in preview, for their reports only.

The functions recur on fuel, which bounds how deep evaluation goes; a run for which it
suffices does not depend on it.
-/

namespace LiveExpr

namespace Interpreter

/-- The value of a constructor for a payload; a fake payload stands for itself. -/
def wrap (constructor : Value → Value) (payload : Value) : Value :=
  if payload.isFake then payload else constructor payload

/-- Puts a failure onto the error rail and takes the payload of a success. -/
def toRail (source : Source) : Value → Value
  | .just value | .ok value => value
  | .nothing => .errorRail .nothing
  | .error value => .errorRail (.error value)
  | .incomplete s => .errorRail (.incomplete s)
  | .failure s message => .errorRail (.failure s message)
  | .errorRail value => .errorRail value
  | value => Message.notOptionOrResult source value

/-- What a built-in's outcome is for its caller. -/
def builtinResult (source : Source) (name : FunctionName) (args : List Value) :
    Except (Option String) (Except BuiltinError Value) → Value
  | .ok (.ok value) => value
  | .ok (.error (.fake value)) => value
  | .ok (.error .wrongArguments) => Message.wrongArguments source name args
  | .ok (.error (.message text)) => .failure source text
  | .error reason => Message.internalFault source (Run.faultText reason)

/-- Replaces a result that is not of the declared type by an error. -/
def checkedResult (types : TypeTable) (source : Source) (f : Function) (result : Value) :
    Value :=
  match Typing.unify types result f.returnType with
  | [] => result
  | errors => Message.returnType source (TypeError.messages errors)

/-- Reports the parameters of a lambda, which have no value before it is applied. -/
def reportParameters (c : Context) : List (NodeId × String) → Run Unit
  | [] => pure ()
  | (id, _) :: rest => do
    Run.report c c.onPath id (.incomplete (c.source id))
    reportParameters c rest

/-- Reports the nodes of a pattern. -/
def reportPattern (c : Context) (executed : Bool) : List (NodeId × Value) → Run Unit
  | [] => pure ()
  | (id, value) :: rest => do
    Run.report c executed id value
    reportPattern c executed rest

mutual

/-- Evaluates an expression and reports its value. -/
def eval : Nat → Context → Scope → Expr → Run Value
  | 0, _, _, _ => Run.outOfFuel
  | fuel + 1, c, scope, e => do
    let value ← evalNode fuel c scope e
    Run.report c c.onPath e.id value
    pure value

/-- Looks at an expression that is not run. -/
def lookAt : Nat → Context → Scope → Expr → Run Unit
  | 0, _, _, _ => Run.outOfFuel
  | fuel + 1, c, scope, e => do
    let _ ← eval fuel c.lookAside scope e
    pure ()

/-- The value of an expression. -/
def evalNode : Nat → Context → Scope → Expr → Run Value
  | 0, _, _, _ => Run.outOfFuel
  | fuel + 1, c, scope, e =>
    match e with
    | .blank id => pure (.incomplete (c.source id))
    | .integer _ n => pure (.int n)
    | .float _ x => pure (.float x)
    | .bool _ b => pure (.bool b)
    | .null _ => pure .null
    | .string _ text => pure (.ofText text)
    | .character id text =>
      match Value.ofCharacter text with
      | .ok value => pure value
      | .error error => pure (Message.invalidCharacter (c.source id) error)
    | .letIn _ name value body => do
      let value ← eval fuel c scope value
      if value.isErrorRail then pure value
      else eval fuel c (if name.isEmpty then scope else Fields.insert name value scope) body
    | .list _ items => do
      match ← evalItems fuel c scope items with
      | .ok values => pure (.ofItems values)
      | .error rail => pure rail
    | .record _ fields => do
      let pairs ← evalFields fuel c scope fields
      pure (.ofPairs pairs)
    | .variable id name =>
      match Fields.get? name scope with
      | some value => pure value
      | none =>
        if c.mode.unboundIsIncomplete then pure (.incomplete (c.source id))
        else pure (Message.unboundVariable (c.source id) name)
    | .functionValue _ name => pure (.named name)
    | .fieldAccess id object field => do
      let value ← eval fuel c scope object
      match value with
      | .record fields => pure ((Fields.get? field fields).getD .null)
      | value =>
        if value.isFake then pure value else pure (Message.notARecord (c.source id) value)
    | .lambda _ parameters body => do
      if c.mode = .preview then reportParameters c parameters
      pure (.lambda parameters scope body)
    | .conditional _ condition thenCase elseCase => do
      let condition ← eval fuel c scope condition
      match condition with
      | .bool false | .null => do
        lookAt fuel c scope thenCase
        eval fuel c scope elseCase
      | condition =>
        if condition.isFake then do
          lookAt fuel c scope thenCase
          lookAt fuel c scope elseCase
          pure condition
        else do
          let value ← eval fuel c scope thenCase
          lookAt fuel c scope elseCase
          pure value
    | .featureFlag _ condition oldCode newCode => do
      let condition ← Run.caught (eval fuel c scope condition)
      match condition with
      | .ok (.bool true) => do
        lookAt fuel c scope oldCode
        eval fuel c scope newCode
      | _ => do
        lookAt fuel c scope newCode
        eval fuel c scope oldCode
    | .constructor id name args =>
      match name, args with
      | "Nothing", [] => pure .nothing
      | "Just", [arg] => do
        let value ← eval fuel c scope arg
        pure (wrap .just value)
      | "Ok", [arg] => do
        let value ← eval fuel c scope arg
        pure (wrap .ok value)
      | "Error", [arg] => do
        let value ← eval fuel c scope arg
        pure (wrap .error value)
      | name, _ =>
        if name = "Nothing" ∨ Matching.isUnary name then pure (.incomplete (c.source id))
        else pure (Message.invalidConstructor (c.source id) name)
    | .matchCases id scrutinee cases => do
      let value ← eval fuel c scope scrutinee
      let chosen ← evalCases fuel c scope value cases none
      match chosen with
      | some result => pure result
      | none => if value.isFake then pure value else pure (.incomplete (c.source id))
    | .apply id callee args position railUse => do
      let callee ← eval fuel c scope callee
      let values ← evalArgs fuel c scope args
      let result ← applyValue fuel c id callee values position railUse
      match position with
      | .inPipe pipe => Run.report c c.onPath pipe result
      | .notInPipe => pure ()
      pure result

/-- The values of arguments. -/
def evalArgs : Nat → Context → Scope → List Expr → Run (List Value)
  | 0, _, _, _ => Run.outOfFuel
  | _ + 1, _, _, [] => pure []
  | fuel + 1, c, scope, e :: rest => do
    let value ← eval fuel c scope e
    let values ← evalArgs fuel c scope rest
    pure (value :: values)

/-- The values of the items of a list without the incomplete ones, or the first value on
the error rail, after which no item is evaluated. -/
def evalItems : Nat → Context → Scope → List Expr → Run (Except Value (List Value))
  | 0, _, _, _ => Run.outOfFuel
  | _ + 1, _, _, [] => pure (.ok [])
  | fuel + 1, c, scope, e :: rest => do
    let value ← eval fuel c scope e
    if value.isErrorRail then pure (.error value)
    else
      match ← evalItems fuel c scope rest with
      | .error rail => pure (.error rail)
      | .ok values => pure (.ok (if value.isIncomplete then values else value :: values))

/-- The values of the fields of a record, without those that have no name. -/
def evalFields : Nat → Context → Scope → List (String × Expr) → Run (List (String × Value))
  | 0, _, _, _ => Run.outOfFuel
  | _ + 1, _, _, [] => pure []
  | fuel + 1, c, scope, (name, e) :: rest =>
    if name.isEmpty then evalFields fuel c scope rest
    else do
      let value ← eval fuel c scope e
      let pairs ← evalFields fuel c scope rest
      pure ((name, value) :: pairs)

/-- The value of the first case that matches; the other cases are looked at.  `chosen` is
the value of an earlier case that matched. -/
def evalCases : Nat → Context → Scope → Value → List (Pattern × Expr) → Option Value →
    Run (Option Value)
  | 0, _, _, _, _, _ => Run.outOfFuel
  | _ + 1, _, _, _, [], chosen => pure chosen
  | fuel + 1, c, scope, value, (pattern, body) :: rest, chosen => do
    let m := Matching.check c.toplevel value pattern
    if chosen.isNone && m.matched then do
      let result ← eval fuel c (m.extend scope) body
      reportPattern c c.onPath m.reports
      evalCases fuel c scope value rest (some result)
    else do
      lookAt fuel c (m.extend scope) body
      reportPattern c false m.reports
      evalCases fuel c scope value rest chosen

/-- Applies what the callee of a call evaluates to.  A hole in a pipeline lets the piped
value through. -/
def applyValue : Nat → Context → NodeId → Value → List Value → PipePosition → RailUse →
    Run Value
  | 0, _, _, _, _, _, _ => Run.outOfFuel
  | fuel + 1, c, id, callee, args, position, railUse =>
    match callee.callable? with
    | some f => applyCallable fuel c id f args position railUse
    | none =>
      match callee, position with
      | .incomplete _, .inPipe _ => pure (args.headD callee)
      | _, _ =>
        if callee.isFake then pure callee
        else pure (Message.notAFunction (c.source id) callee)

/-- Applies a function value.  The body of a lambda is evaluated with the variables that
it captured, in the toplevel of its caller. -/
def applyCallable : Nat → Context → NodeId → Callable → List Value → PipePosition →
    RailUse → Run Value
  | 0, _, _, _, _, _, _ => Run.outOfFuel
  | fuel + 1, c, id, f, args, position, railUse =>
    match f with
    | .named name => call fuel c name id args position railUse
    | .lambda parameters scope body =>
      match args.find? fun value => value.isIncomplete || value.isErrorRail with
      | some value => pure value
      | none =>
        if parameters.length ≠ args.length then
          pure (Message.wrongLambdaCount (c.source id) parameters.length args.length)
        else
          eval fuel c (Fields.extend scope ((parameters.map Prod.snd).zip args)) body

/-- Calls a function by name.  Arguments on the error rail, a missing function, a wrong
number of arguments and fake arguments are dealt with, in this order, before the function
is carried out. -/
def call : Nat → Context → FunctionName → NodeId → List Value → PipePosition → RailUse →
    Run Value
  | 0, _, _, _, _, _, _ => Run.outOfFuel
  | fuel + 1, c, name, id, args, position, railUse =>
    match args.find? Value.isErrorRail with
    | some value => pure value
    | none =>
      match Assoc.get? name c.registry with
      | none =>
        if c.mode.replaysResults then do
          let recorded ← Run.load c (c.site name id) args
          pure (recorded.getD (.incomplete (c.source id)))
        else pure (Message.functionNotFound (c.source id) name)
      | some f =>
        if f.parameters.length ≠ args.length then
          pure (Message.wrongCount (c.source id) name f.parameters.length args.length)
        else
          match args.find? fun value => value.isIncomplete || value.isFailure with
          | some value =>
            match position, value with
            | .inPipe _, .incomplete _ => pure (args.headD value)
            | _, _ => pure value
          | none => do
            let result ← carryOut fuel c f id args
            match railUse with
            | .rail => pure (toRail (c.source id) result)
            | .noRail => pure result

/-- Carries out a function.  A preview does not enter a function that is under way. -/
def carryOut : Nat → Context → Function → NodeId → List Value → Run Value
  | 0, _, _, _, _ => Run.outOfFuel
  | fuel + 1, c, f, id, args =>
    match f.implementation with
    | .builtin b => do
      let result ← carryOutBuiltin fuel (c.inCall f.name id) f b (c.site f.name id) args
      pure (checkedResult c.types (c.source id) f result)
    | .written _ toplevel body =>
      if c.mode = .preview ∧ (c.stack.outerCall? f.name).isSome then
        pure (.incomplete (c.source id))
      else
        match Typing.checkCall c.types f.parameterTypes args with
        | error :: errors =>
          pure (Message.parameterTypes (c.source id) f.name
            (TypeError.messages (error :: errors)))
        | [] => do
          let result ← carryOutBody fuel (c.inCall f.name id) f toplevel body
            (c.site f.name id) args
          pure (checkedResult c.types (c.source id) f result)

/-- Carries out the body of a function.  A preview takes the recorded result instead if
there is one; the error rail ends with the body. -/
def carryOutBody : Nat → Context → Function → ToplevelId → Expr → CallSite → List Value →
    Run Value
  | 0, _, _, _, _, _, _ => Run.outOfFuel
  | fuel + 1, c, f, toplevel, body, site, args => do
    Run.enter c toplevel
    match ← Run.loadIf c.mode.replaysResults c site args with
    | some result => do
      Run.record c site args result
      pure result
    | none => do
      let scope := Fields.ofPairs ((f.parameters.map Parameter.name).zip args)
      let value ← eval fuel (c.inToplevel toplevel) scope body
      Run.record c site args value.offRail
      pure value.offRail

/-- Carries out a built-in.  A preview takes the recorded result of a pure one if there is
one, and never runs an impure one; the results of repeatable ones are recorded. -/
def carryOutBuiltin : Nat → Context → Function → Builtin → CallSite → List Value →
    Run Value
  | 0, _, _, _, _, _ => Run.outOfFuel
  | fuel + 1, c, f, b, site, args => do
    match ← Run.loadIf (c.mode.replaysResults && f.previewability != .repeatable) c site
      args with
    | some result => pure result
    | none =>
      if f.previewability = .impure ∧ ¬ c.mode.allowsImpureCalls then
        pure (.incomplete (c.source site.caller))
      else do
        let known ← Run.invoke c f args
        let outcome ← Run.caught (runSteps fuel c site.caller (b.run known args))
        let result := builtinResult (c.source site.caller) f.name args outcome
        if f.previewability = .repeatable then Run.record c site args result
        pure result

/-- Does the steps of a built-in; what it applies is called from its own caller. -/
def runSteps : Nat → Context → NodeId → BuiltinStep → Run (Except BuiltinError Value)
  | 0, _, _, _ => Run.outOfFuel
  | fuel + 1, c, caller, step =>
    match step with
    | .finish result => pure result
    | .fail reason => Run.fault reason
    | .apply f args position railUse next => do
      let value ← applyCallable fuel c caller f args position railUse
      runSteps fuel c caller (next value)

end

end Interpreter

end LiveExpr
