import LiveExpr.Proofs.Frames

/-!
# Steps

What a function of the interpreter does with one unit of fuel, as a tree: what it calls,
reports, looks up, records and carries out, and how it goes on with what it is given. The
interpreter runs the tree, and `Frame.callsOf` lists its calls; so what holds of a run
because it holds of its calls is proved by induction on the tree, once for each kind of
node. Statements about the values that a run meets, or about two runs that do not take the
same tree, are proved along the interpreter itself. Main statements: `Activation.run_succ`
and `Frame.callsOf_eq`.
-/

namespace LiveExpr

/-- What a report is about: an expression, or a pattern, parameter or step of a pipeline
that belongs to one. -/
inductive Place where
  | node (e : Expr)
  | mark (id : NodeId)

/-- The identifier that a place is reported under. -/
def Place.id : Place → NodeId
  | node e => e.id
  | mark id => id

namespace Run

variable {α : Type}

/-- To hand on the value of a run is the run. -/
theorem bind_pure (run : Run α) :
  (run >>= fun value => pure value) = run
  := by
  funext w
  change andThen run done w = run w
  rw [andThen]
  generalize run w = ending
  obtain ⟨_ | _ | _, w'⟩ := ending <;> rfl

end Run

namespace Interpreter

namespace Activation

/-- What a function of the interpreter results in. -/
def Result : Activation → Type
  | eval _ _ _ | evalNode _ _ _ | applyValue _ _ _ _ _ _ | applyCallable _ _ _ _ _ _
  | call _ _ _ _ _ _ | carryOut _ _ _ _ | carryOutBody _ _ _ _ _ _
  | carryOutBuiltin _ _ _ _ _ => Value
  | lookAt _ _ _ => Unit
  | evalArgs _ _ _ => List Value
  | evalItems _ _ _ => Except Value (List Value)
  | evalFields _ _ _ => List (String × Value)
  | evalCases _ _ _ _ _ => Option Value
  | runSteps _ _ _ => Except BuiltinError Value

/-- The run of a function of the interpreter. -/
def run (fuel : Nat) : (activation : Activation) → Run activation.Result
  | eval c scope e => Interpreter.eval fuel c scope e
  | lookAt c scope e => Interpreter.lookAt fuel c scope e
  | evalNode c scope e => Interpreter.evalNode fuel c scope e
  | evalArgs c scope es => Interpreter.evalArgs fuel c scope es
  | evalItems c scope es => Interpreter.evalItems fuel c scope es
  | evalFields c scope fields => Interpreter.evalFields fuel c scope fields
  | evalCases c scope value cases chosen => Interpreter.evalCases fuel c scope value cases chosen
  | applyValue c id callee args position railUse =>
    Interpreter.applyValue fuel c id callee args position railUse
  | applyCallable c id f args position railUse =>
    Interpreter.applyCallable fuel c id f args position railUse
  | call c name id args position railUse => Interpreter.call fuel c name id args position railUse
  | carryOut c f id args => Interpreter.carryOut fuel c f id args
  | carryOutBody c f toplevel body site args =>
    Interpreter.carryOutBody fuel c f toplevel body site args
  | carryOutBuiltin c f b site args => Interpreter.carryOutBuiltin fuel c f b site args
  | runSteps c caller step => Interpreter.runSteps fuel c caller step

/-- A frame leaves the world of its run. -/
theorem leaves_eq (activation : Activation) (fuel : Nat) (w : World) :
  activation.leaves fuel w = (activation.run fuel w).2
  := by cases activation <;> rfl

/-- Without fuel a run comes nowhere. -/
theorem run_zero (activation : Activation) :
  activation.run 0 = Run.outOfFuel
  := by cases activation <;> rfl

end Activation

/-- What is done in a context, up to the functions of the interpreter that are called. Code
is reported as executed on the path of execution only, and an impure built-in is carried out
only where that is allowed. -/
inductive Step (c : Context) (α : Type) where
  | done (value : α)
  | fault (reason : Option String)
  | call (activation : Activation) (next : activation.Result → Step c α)
  /-- A call whose fault is caught. -/
  | attempt (activation : Activation)
      (next : Except (Option String) activation.Result → Step c α)
  | report (executed : Bool) (hexecuted : executed = true → c.onPath = true)
      (reports : List (Place × Value)) (next : Step c α)
  | enter (toplevel : ToplevelId) (next : Step c α)
  | load (wanted : Bool) (site : CallSite) (args : List Value)
      (next : Option Value → Step c α)
  | record (site : CallSite) (args : List Value) (value : Value) (next : Step c α)
  | invoke (f : Function) (args : List Value)
      (hallowed : f.previewability = .impure → c.mode.allowsImpureCalls = true)
      (next : BuiltinContext → Step c α)

namespace Step

variable {c : Context} {α : Type}

/-- The places of reports with their identifiers for names. -/
def entries (reports : List (Place × Value)) : List (NodeId × Value) :=
  reports.map fun report => (report.1.id, report.2)

/-- Does what a tree says, the functions with some fuel. -/
def run (fuel : Nat) : Step c α → Run α
  | done value => pure value
  | fault reason => Run.fault reason
  | call activation next => do
    let result ← activation.run fuel
    (next result).run fuel
  | attempt activation next => do
    let result ← Run.caught (activation.run fuel)
    (next result).run fuel
  | report executed _ reports next => do
    reportPattern c executed (entries reports)
    next.run fuel
  | enter toplevel next => do
    Run.enter c toplevel
    next.run fuel
  | load wanted site args next => do
    let recorded ← Run.loadIf wanted c site args
    (next recorded).run fuel
  | record site args value next => do
    Run.record c site args value
    next.run fuel
  | invoke f args _ next => do
    let known ← Run.invoke c f args
    (next known).run fuel

/-- The calls of a tree, as far as its run comes. -/
def calls (fuel : Nat) (w : World) : Step c α → List Frame
  | done _ | fault _ => []
  | call activation next =>
    ⟨fuel, activation, w⟩ :: Frame.after (activation.run fuel) w fun result w =>
      (next result).calls fuel w
  | attempt activation next =>
    ⟨fuel, activation, w⟩ :: Frame.after (Run.caught (activation.run fuel)) w fun result w =>
      (next result).calls fuel w
  | report executed _ reports next =>
    Frame.after (reportPattern c executed (entries reports)) w fun _ w => next.calls fuel w
  | enter toplevel next => Frame.after (Run.enter c toplevel) w fun _ w => next.calls fuel w
  | load wanted site args next =>
    Frame.after (Run.loadIf wanted c site args) w fun recorded w =>
      (next recorded).calls fuel w
  | record site args value next =>
    Frame.after (Run.record c site args value) w fun _ w => next.calls fuel w
  | invoke f args _ next =>
    Frame.after (Run.invoke c f args) w fun known w => (next known).calls fuel w

/-- A call that nothing follows. -/
def last (activation : Activation) : Step c activation.Result :=
  call activation done

/-- The report of one place. -/
def reportOne (place : Place) (value : Value) (next : Step c α) : Step c α :=
  report c.onPath (fun h => h) [(place, value)] next

/-- The reports of a pattern. -/
def patternReports (reports : List (NodeId × Value)) : List (Place × Value) :=
  reports.map fun report => (.mark report.1, report.2)

/-- The reports of the parameters of a lambda. -/
def parameterReports (c : Context) (parameters : List (NodeId × String)) :
    List (Place × Value) :=
  parameters.map fun parameter => (.mark parameter.1, .incomplete (c.source parameter.1))

end Step

/-! ### The steps of the interpreter -/

/-- A look at one expression and the evaluation of another. -/
def takenStep (c : Context) (scope : Scope) (other taken : Expr) : Step c Value :=
  .call (.lookAt c scope other) fun _ => .last (.eval c scope taken)

/-- The evaluation of a node. -/
def nodeStep (c : Context) (scope : Scope) : Expr → Step c Value
  | .blank id => .done (.incomplete (c.source id))
  | .integer _ n => .done (.int n)
  | .float _ x => .done (.float x)
  | .bool _ b => .done (.bool b)
  | .null _ => .done .null
  | .string _ text => .done (.ofText text)
  | .character id text =>
    match Value.ofCharacter text with
    | .ok value => .done value
    | .error error => .done (Message.invalidCharacter (c.source id) error)
  | .letIn _ name value body =>
    .call (.eval c scope value) fun (value : Value) =>
      if value.isErrorRail then .done value
      else
        .last (.eval c (if name.isEmpty then scope else Fields.insert name value scope) body)
  | .list _ items =>
    .call (.evalItems c scope items) fun (result : Except Value (List Value)) =>
      match result with
      | .ok values => .done (.ofItems values)
      | .error rail => .done rail
  | .record _ fields => .call (.evalFields c scope fields) fun pairs => .done (.ofPairs pairs)
  | .variable id name =>
    match Fields.get? name scope with
    | some value => .done value
    | none =>
      if c.mode.unboundIsIncomplete then .done (.incomplete (c.source id))
      else .done (Message.unboundVariable (c.source id) name)
  | .functionValue _ name => .done (.named name)
  | .fieldAccess id object field =>
    .call (.eval c scope object) fun (value : Value) =>
      match value with
      | .record fields => .done ((Fields.get? field fields).getD .null)
      | value =>
        if value.isFake then .done value else .done (Message.notARecord (c.source id) value)
  | .lambda _ parameters body =>
    if c.mode = .preview then
      .report c.onPath (fun h => h) (Step.parameterReports c parameters)
        (.done (.lambda parameters scope body))
    else .done (.lambda parameters scope body)
  | .conditional _ condition thenCase elseCase =>
    .call (.eval c scope condition) fun (condition : Value) =>
      match condition with
      | .bool false | .null => takenStep c scope thenCase elseCase
      | condition =>
        if condition.isFake then
          .call (.lookAt c scope thenCase) fun _ =>
            .call (.lookAt c scope elseCase) fun _ => .done condition
        else
          .call (.eval c scope thenCase) fun value =>
            .call (.lookAt c scope elseCase) fun _ => .done value
  | .featureFlag _ condition oldCode newCode =>
    .attempt (.eval c scope condition) fun (condition : Except (Option String) Value) =>
      match condition with
      | .ok (.bool true) => takenStep c scope oldCode newCode
      | _ => takenStep c scope newCode oldCode
  | .constructor id name args =>
    match name, args with
    | "Nothing", [] => .done .nothing
    | "Just", [arg] => .call (.eval c scope arg) fun value => .done (wrap .just value)
    | "Ok", [arg] => .call (.eval c scope arg) fun value => .done (wrap .ok value)
    | "Error", [arg] => .call (.eval c scope arg) fun value => .done (wrap .error value)
    | name, _ =>
      if name = "Nothing" ∨ Matching.isUnary name then .done (.incomplete (c.source id))
      else .done (Message.invalidConstructor (c.source id) name)
  | .matchCases id scrutinee cases =>
    .call (.eval c scope scrutinee) fun (value : Value) =>
      .call (.evalCases c scope value cases none) fun (chosen : Option Value) =>
        match chosen with
        | some result => .done result
        | none => if value.isFake then .done value else .done (.incomplete (c.source id))
  | .apply id callee args position railUse =>
    .call (.eval c scope callee) fun (callee : Value) =>
      .call (.evalArgs c scope args) fun (values : List Value) =>
        .call (.applyValue c id callee values position railUse) fun (result : Value) =>
          match position with
          | .inPipe pipe => .reportOne (.mark pipe) result (.done result)
          | .notInPipe => .done result

/-- The application of a value. -/
def applyValueStep (c : Context) (id : NodeId) (callee : Value) (args : List Value)
    (position : PipePosition) (railUse : RailUse) : Step c Value :=
  match callee.callable? with
  | some f => .last (.applyCallable c id f args position railUse)
  | none =>
    match callee, position with
    | .incomplete _, .inPipe _ => .done (args.headD callee)
    | _, _ =>
      if callee.isFake then .done callee else .done (Message.notAFunction (c.source id) callee)

/-- The application of a function value. -/
def applyCallableStep (c : Context) (id : NodeId) (f : Callable) (args : List Value)
    (position : PipePosition) (railUse : RailUse) : Step c Value :=
  match f with
  | .named name => .last (.call c name id args position railUse)
  | .lambda parameters scope body =>
    match args.find? fun value => value.isIncomplete || value.isErrorRail with
    | some value => .done value
    | none =>
      if parameters.length ≠ args.length then
        .done (Message.wrongLambdaCount (c.source id) parameters.length args.length)
      else .last (.eval c (Fields.extend scope ((parameters.map Prod.snd).zip args)) body)

/-- The call of a function by name. -/
def callStep (c : Context) (name : FunctionName) (id : NodeId) (args : List Value)
    (position : PipePosition) (railUse : RailUse) : Step c Value :=
  match args.find? Value.isErrorRail with
  | some value => .done value
  | none =>
    match Assoc.get? name c.registry with
    | none =>
      if c.mode.replaysResults then
        .load true (c.site name id) args fun recorded =>
          .done (recorded.getD (.incomplete (c.source id)))
      else .done (Message.functionNotFound (c.source id) name)
    | some f =>
      if f.parameters.length ≠ args.length then
        .done (Message.wrongCount (c.source id) name f.parameters.length args.length)
      else
        match args.find? fun value => value.isIncomplete || value.isFailure with
        | some value =>
          match position, value with
          | .inPipe _, .incomplete _ => .done (args.headD value)
          | _, _ => .done value
        | none =>
          .call (.carryOut c f id args) fun (result : Value) =>
            match railUse with
            | .rail => .done (toRail (c.source id) result)
            | .noRail => .done result

/-- The carrying out of a function. -/
def carryOutStep (c : Context) (f : Function) (id : NodeId) (args : List Value) :
    Step c Value :=
  match f.implementation with
  | .builtin b =>
    .call (.carryOutBuiltin (c.inCall f.name id) f b (c.site f.name id) args)
      fun (result : Value) => .done (checkedResult c.types (c.source id) f result)
  | .written _ toplevel body =>
    if c.mode = .preview ∧ (c.stack.outerCall? f.name).isSome then
      .done (.incomplete (c.source id))
    else
      match Typing.checkCall c.types f.parameterTypes args with
      | error :: errors =>
        .done (Message.parameterTypes (c.source id) f.name
          (TypeError.messages (error :: errors)))
      | [] =>
        .call (.carryOutBody (c.inCall f.name id) f toplevel body (c.site f.name id) args)
          fun (result : Value) => .done (checkedResult c.types (c.source id) f result)

/-- The carrying out of the body of a function. -/
def bodyStep (c : Context) (f : Function) (toplevel : ToplevelId) (body : Expr)
    (site : CallSite) (args : List Value) : Step c Value :=
  .enter toplevel <| .load c.mode.replaysResults site args fun recorded =>
    match recorded with
    | some result => .record site args result (.done result)
    | none =>
      let scope := Fields.ofPairs ((f.parameters.map Parameter.name).zip args)
      .call (.eval (c.inToplevel toplevel) scope body) fun (value : Value) =>
        .record site args value.offRail (.done value.offRail)

/-- The carrying out of a built-in. -/
def builtinStep (c : Context) (f : Function) (b : Builtin) (site : CallSite)
    (args : List Value) : Step c Value :=
  .load (c.mode.replaysResults && f.previewability != .repeatable) site args fun recorded =>
    match recorded with
    | some result => .done result
    | none =>
      if h : f.previewability = .impure ∧ ¬ c.mode.allowsImpureCalls then
        .done (.incomplete (c.source site.caller))
      else
        .invoke f args (fun himpure => by simpa [himpure] using h) fun known =>
          .attempt (.runSteps c site.caller (b.run known args)) fun outcome =>
            let result := builtinResult (c.source site.caller) f.name args outcome
            if f.previewability = .repeatable then .record site args result (.done result)
            else .done result

/-- What a function of the interpreter does with one unit of fuel. -/
def Activation.step : (activation : Activation) → Step activation.context activation.Result
  | .eval c scope e =>
    .call (.evalNode c scope e) fun value => .reportOne (.node e) value (.done value)
  | .lookAt c scope e => .call (.eval c.lookAside scope e) fun _ => .done ()
  | .evalNode c scope e => nodeStep c scope e
  | .evalArgs _ _ [] => .done []
  | .evalArgs c scope (e :: rest) =>
    .call (.eval c scope e) fun value =>
      .call (.evalArgs c scope rest) fun values => .done (value :: values)
  | .evalItems _ _ [] => .done (.ok [])
  | .evalItems c scope (e :: rest) =>
    .call (.eval c scope e) fun (value : Value) =>
      if value.isErrorRail then .done (.error value)
      else
        .call (.evalItems c scope rest) fun (result : Except Value (List Value)) =>
          match result with
          | .error rail => .done (.error rail)
          | .ok values => .done (.ok (if value.isIncomplete then values else value :: values))
  | .evalFields _ _ [] => .done []
  | .evalFields c scope ((name, e) :: rest) =>
    if name.isEmpty then .last (.evalFields c scope rest)
    else
      .call (.eval c scope e) fun value =>
        .call (.evalFields c scope rest) fun pairs => .done ((name, value) :: pairs)
  | .evalCases _ _ _ [] chosen => .done chosen
  | .evalCases c scope value ((pattern, body) :: rest) chosen =>
    let m := Matching.check c.toplevel value pattern
    if chosen.isNone && m.matched then
      .call (.eval c (m.extend scope) body) fun result =>
        .report c.onPath (fun h => h) (Step.patternReports m.reports)
          (.last (.evalCases c scope value rest (some result)))
    else
      .call (.lookAt c (m.extend scope) body) fun _ =>
        .report false (fun h => absurd h Bool.false_ne_true) (Step.patternReports m.reports)
          (.last (.evalCases c scope value rest chosen))
  | .applyValue c id callee args position railUse =>
    applyValueStep c id callee args position railUse
  | .applyCallable c id f args position railUse =>
    applyCallableStep c id f args position railUse
  | .call c name id args position railUse => callStep c name id args position railUse
  | .carryOut c f id args => carryOutStep c f id args
  | .carryOutBody c f toplevel body site args => bodyStep c f toplevel body site args
  | .carryOutBuiltin c f b site args => builtinStep c f b site args
  | .runSteps c caller step =>
    match step with
    | .finish result => .done result
    | .fail reason => .fault reason
    | .apply f args position railUse next =>
      .call (.applyCallable c caller f args position railUse) fun value =>
        .last (.runSteps c caller (next value))

/-! ### Runs of steps -/

section

variable {c : Context} {scope : Scope} {fuel : Nat}

open Run (bind_pure)

theorem Step.run_last (activation : Activation) :
  (Step.last activation : Step c _).run fuel = activation.run fuel
  := bind_pure _

theorem reportPattern_singleton {executed : Bool} {id : NodeId} {value : Value} :
  reportPattern c executed [(id, value)] = Run.report c executed id value
  := bind_pure _

/-- The parameters of a lambda are reported like those of a pattern. -/
theorem reportParameters_eq (parameters : List (NodeId × String)) :
  reportParameters c parameters
    = reportPattern c c.onPath (Step.entries (Step.parameterReports c parameters))
  := by
  induction parameters with
  | nil => rfl
  | cons parameter rest ih =>
    rw [reportParameters, ih]
    rfl

theorem Step.entries_patternReports (reports : List (NodeId × Value)) :
  Step.entries (Step.patternReports reports) = reports
  := by
  rw [entries, patternReports, List.map_map]
  exact List.map_id reports

/-- The reports of a pattern come first. -/
theorem Step.run_patternReports {executed : Bool} (hexecuted : executed = true → c.onPath = true)
    (reports : List (NodeId × Value)) (activation : Activation) :
  (Step.report executed hexecuted (patternReports reports) (last activation)).run fuel
    = (do reportPattern c executed reports; activation.run fuel)
  := by
  rw [Step.run, entries_patternReports]
  exact bind_congr fun _ => run_last activation

/-- The report of one place comes first. -/
theorem Step.run_reportOne {α : Type} (place : Place) (value : Value) (next : Step c α) :
  (Step.reportOne place value next).run fuel
    = (do Run.report c c.onPath place.id value; next.run fuel)
  := by
  rw [← reportPattern_singleton]
  rfl

theorem Step.run_ite {α : Type} {p : Prop} [Decidable p] (step other : Step c α) :
  (if p then step else other).run fuel = if p then step.run fuel else other.run fuel
  := apply_ite _ _ _ _

/-- The tree of a branch that is taken runs a look at the other first. -/
theorem takenStep_run (other taken : Expr) :
  (takenStep c scope other taken).run fuel
    = (do lookAt fuel c scope other; eval fuel c scope taken)
  := bind_congr fun _ => Step.run_last _

/-- The evaluation of a node runs the tree of the node. -/
theorem evalNode_succ (e : Expr) :
  evalNode (fuel + 1) c scope e = (nodeStep c scope e).run fuel
  := by
  cases e with
  | blank | integer | float | bool | null | string | functionValue => rfl
  | character id text =>
    rw [evalNode, nodeStep]
    cases Value.ofCharacter text <;> rfl
  | «variable» id name =>
    rw [evalNode, nodeStep]
    cases Fields.get? name scope with
    | some value => rfl
    | none =>
      dsimp only
      split <;> rfl
  | letIn id name value body =>
    rw [evalNode]
    refine bind_congr fun value => ?_
    refine Eq.trans ?_ (Step.run_ite _ _).symm
    exact ite_congr rfl (fun _ => rfl) fun _ => (Step.run_last (.eval c _ body)).symm
  | list id items =>
    rw [evalNode]
    refine bind_congr fun result => ?_
    cases result <;> rfl
  | record id fields => rw [evalNode]; rfl
  | fieldAccess id object field =>
    rw [evalNode]
    refine bind_congr fun value => ?_
    cases value <;> rfl
  | lambda id parameters body =>
    rw [evalNode, nodeStep, reportParameters_eq]
    split <;> rfl
  | conditional id condition thenCase elseCase =>
    rw [evalNode]
    refine bind_congr fun condition => ?_
    cases condition with
    | bool b =>
      cases b with
      | false => exact (takenStep_run thenCase elseCase).symm
      | true => rfl
    | null => exact (takenStep_run thenCase elseCase).symm
    | _ => rfl
  | featureFlag id condition oldCode newCode =>
    rw [evalNode]
    refine bind_congr fun condition => ?_
    rcases condition with reason | value
    · exact (takenStep_run newCode oldCode).symm
    · cases value with
      | bool b =>
        cases b with
        | false => exact (takenStep_run newCode oldCode).symm
        | true => exact (takenStep_run oldCode newCode).symm
      | _ => exact (takenStep_run newCode oldCode).symm
  | constructor id name args =>
    unfold evalNode
    dsimp only
    split
    · rfl
    · rfl
    · rfl
    · rfl
    · next hnothing hjust hok herror =>
      have hlast : nodeStep c scope (.constructor id name args)
          = if name = "Nothing" ∨ Matching.isUnary name then .done (.incomplete (c.source id))
            else .done (Message.invalidConstructor (c.source id) name) := by
        unfold nodeStep
        dsimp only
        split
        · exact (hnothing rfl rfl).elim
        · exact (hjust _ rfl rfl).elim
        · exact (hok _ rfl rfl).elim
        · exact (herror _ rfl rfl).elim
        · rfl
      rw [hlast]
      split <;> rfl
  | matchCases id scrutinee cases =>
    rw [evalNode]
    refine bind_congr fun value => bind_congr fun chosen => ?_
    cases chosen with
    | some result => rfl
    | none =>
      dsimp only
      split <;> rfl
  | apply id callee args position railUse =>
    rw [evalNode]
    refine bind_congr fun callee => bind_congr fun values => bind_congr fun result => ?_
    cases position with
    | inPipe pipe => exact (Step.run_reportOne (.mark pipe) result (.done result)).symm
    | notInPipe => rfl

/-- The application of a value runs its tree. -/
theorem applyValue_succ (id : NodeId) (callee : Value) (args : List Value)
    (position : PipePosition) (railUse : RailUse) :
  applyValue (fuel + 1) c id callee args position railUse
    = (applyValueStep c id callee args position railUse).run fuel
  := by
  unfold applyValue applyValueStep
  cases callee.callable? with
  | some f => exact (Step.run_last (.applyCallable c id f args position railUse)).symm
  | none => cases callee <;> cases position <;> rfl

/-- The application of a function value runs its tree. -/
theorem applyCallable_succ (id : NodeId) (f : Callable) (args : List Value)
    (position : PipePosition) (railUse : RailUse) :
  applyCallable (fuel + 1) c id f args position railUse
    = (applyCallableStep c id f args position railUse).run fuel
  := by
  cases f with
  | named name => exact (Step.run_last (.call c name id args position railUse)).symm
  | lambda parameters captured body =>
    unfold applyCallable applyCallableStep
    dsimp only
    cases args.find? fun value => value.isIncomplete || value.isErrorRail with
    | some value => rfl
    | none =>
      refine Eq.trans ?_ (Step.run_ite _ _).symm
      exact ite_congr rfl (fun _ => rfl) fun _ => (Step.run_last (.eval c _ body)).symm

/-- A call by name runs its tree. -/
theorem call_succ (name : FunctionName) (id : NodeId) (args : List Value)
    (position : PipePosition) (railUse : RailUse) :
  call (fuel + 1) c name id args position railUse
    = (callStep c name id args position railUse).run fuel
  := by
  rw [call, callStep]
  cases args.find? Value.isErrorRail with
  | some value => rfl
  | none =>
    cases Assoc.get? name c.registry with
    | none =>
      dsimp only
      split <;> rfl
    | some f =>
      dsimp only
      split
      · rfl
      · cases args.find? fun value => value.isIncomplete || value.isFailure with
        | some value => cases position <;> cases value <;> rfl
        | none =>
          refine bind_congr fun result => ?_
          cases railUse <;> rfl

/-- Carrying out a function runs its tree. -/
theorem carryOut_succ (f : Function) (id : NodeId) (args : List Value) :
  carryOut (fuel + 1) c f id args = (carryOutStep c f id args).run fuel
  := by
  rw [carryOut, carryOutStep]
  cases f.implementation with
  | builtin b => rfl
  | written origin toplevel body =>
    dsimp only
    split
    · rfl
    · cases Typing.checkCall c.types f.parameterTypes args <;> rfl

/-- Carrying out a body runs its tree. -/
theorem carryOutBody_succ (f : Function) (toplevel : ToplevelId) (body : Expr)
    (site : CallSite) (args : List Value) :
  carryOutBody (fuel + 1) c f toplevel body site args
    = (bodyStep c f toplevel body site args).run fuel
  := by
  rw [carryOutBody]
  refine bind_congr fun _ => bind_congr fun recorded => ?_
  cases recorded <;> rfl

/-- Carrying out a built-in runs its tree. -/
theorem carryOutBuiltin_succ (f : Function) (b : Builtin) (site : CallSite)
    (args : List Value) :
  carryOutBuiltin (fuel + 1) c f b site args = (builtinStep c f b site args).run fuel
  := by
  rw [carryOutBuiltin]
  refine bind_congr fun recorded => ?_
  cases recorded with
  | some result => rfl
  | none =>
    dsimp only
    split
    · rfl
    · refine bind_congr fun known => bind_congr fun outcome => ?_
      dsimp only
      split <;> rfl

/-- A function of the interpreter does what its tree says. -/
theorem Activation.run_succ (fuel : Nat) (activation : Activation) :
  activation.run (fuel + 1) = activation.step.run fuel
  := by
  cases activation with
  | eval c scope e =>
    change Interpreter.eval (fuel + 1) c scope e = _
    rw [Interpreter.eval]
    exact bind_congr fun value => (Step.run_reportOne (.node e) value (.done value)).symm
  | lookAt c scope e => exact Interpreter.lookAt.eq_2 _ _ _ _
  | evalNode c scope e => exact evalNode_succ e
  | evalArgs c scope es => cases es <;> rfl
  | evalItems c scope es =>
    cases es with
    | nil => rfl
    | cons e rest =>
      change Interpreter.evalItems (fuel + 1) c scope (e :: rest) = _
      rw [Interpreter.evalItems]
      refine bind_congr fun value => ?_
      refine Eq.trans ?_ (Step.run_ite _ _).symm
      refine ite_congr rfl (fun _ => rfl) fun _ => bind_congr fun result => ?_
      cases result <;> rfl
  | evalFields c scope fields =>
    cases fields with
    | nil => rfl
    | cons field rest =>
      obtain ⟨name, e⟩ := field
      change Interpreter.evalFields (fuel + 1) c scope ((name, e) :: rest) = _
      rw [Interpreter.evalFields]
      refine Eq.trans ?_ (Step.run_ite _ _).symm
      exact ite_congr rfl (fun _ => (Step.run_last (.evalFields c scope rest)).symm) fun _ => rfl
  | evalCases c scope value cases chosen =>
    cases cases with
    | nil => rfl
    | cons case rest =>
      obtain ⟨pattern, body⟩ := case
      change Interpreter.evalCases (fuel + 1) c scope value ((pattern, body) :: rest) chosen = _
      rw [Interpreter.evalCases]
      refine Eq.trans ?_ (Step.run_ite _ _).symm
      refine ite_congr rfl (fun _ => ?_) fun _ => ?_
      · refine bind_congr fun result => ?_
        exact (Step.run_patternReports _ _ (.evalCases c scope value rest (some result))).symm
      · refine bind_congr fun _ => ?_
        exact (Step.run_patternReports _ _ (.evalCases c scope value rest chosen)).symm
  | applyValue c id callee args position railUse =>
    exact applyValue_succ id callee args position railUse
  | applyCallable c id f args position railUse =>
    exact applyCallable_succ id f args position railUse
  | call c name id args position railUse => exact call_succ name id args position railUse
  | carryOut c f id args => exact carryOut_succ f id args
  | carryOutBody c f toplevel body site args =>
    exact carryOutBody_succ f toplevel body site args
  | carryOutBuiltin c f b site args => exact carryOutBuiltin_succ f b site args
  | runSteps c caller steps =>
    cases steps with
    | finish result => rfl
    | fail reason => rfl
    | apply f args position railUse next =>
      change Interpreter.runSteps (fuel + 1) c caller (.apply f args position railUse next) = _
      rw [Interpreter.runSteps]
      exact bind_congr fun value => (Step.run_last (.runSteps c caller (next value))).symm

end

/-! ### Calls of steps -/

section

open Interpreter.Frame (after nodeCalls callsOf)

variable {c : Context} {scope : Scope} {fuel : Nat} {w : World} {α β : Type}

theorem Frame.after_nil {run : Run α} :
  after run w (fun _ _ => []) = []
  := by
  rw [after]
  split <;> rfl

theorem Frame.after_congr {run : Run α} {next next' : α → World → List Frame}
    (h : ∀ value w', next value w' = next' value w') :
  after run w next = after run w next'
  := by rw [funext fun value => funext fun w' => h value w']

/-- A call after which nothing is called. -/
theorem Step.calls_single {activation : Activation} {next : activation.Result → Step c α}
    (h : ∀ result w', (next result).calls fuel w' = []) :
  (Step.call activation next).calls fuel w = [⟨fuel, activation, w⟩]
  := by rw [calls, Frame.after_congr h, Frame.after_nil]

theorem Step.calls_last (activation : Activation) :
  (Step.last activation : Step c _).calls fuel w = [⟨fuel, activation, w⟩]
  := calls_single fun _ _ => rfl

theorem Step.calls_ite {p : Prop} [Decidable p] (step other : Step c α) :
  (if p then step else other).calls fuel w
    = if p then step.calls fuel w else other.calls fuel w
  := apply_ite _ _ _ _

theorem Step.calls_reportOne {place : Place} {value : Value} {result : α} :
  (Step.reportOne place value (.done result) : Step c α).calls fuel w = []
  := Frame.after_nil

theorem Step.calls_record {site : CallSite} {args : List Value} {value : Value} {result : α} :
  (Step.record site args value (.done result) : Step c α).calls fuel w = []
  := Frame.after_nil

/-- The reports of a pattern come before the call. -/
theorem Step.calls_patternReports {executed : Bool}
    {hexecuted : executed = true → c.onPath = true} {reports : List (NodeId × Value)}
    (activation : Activation) :
  (Step.report executed hexecuted (patternReports reports) (last activation)).calls fuel w
    = after (reportPattern c executed reports) w fun _ w => [⟨fuel, activation, w⟩]
  := by
  rw [calls, entries_patternReports]
  exact Frame.after_congr fun _ _ => calls_last activation

theorem takenStep_calls (other taken : Expr) :
  (takenStep c scope other taken).calls fuel w = Frame.takenCalls fuel c scope other taken w
  := congrArg (List.cons _) (Frame.after_congr fun _ _ => Step.calls_last _)

/-- A look at code is the last call. -/
theorem Step.calls_thenLookAt {activation : Activation} {other : Expr}
    {result : activation.Result → Value} :
  (Step.call activation fun value =>
      .call (.lookAt c scope other) fun _ => .done (result value) : Step c Value).calls fuel w
    = ⟨fuel, activation, w⟩ :: after (activation.run fuel) w fun _ w =>
        [⟨fuel, .lookAt c scope other, w⟩]
  := congrArg (List.cons _) (Frame.after_congr fun _ _ => Step.calls_single fun _ _ => rfl)

/-- The calls of a node are those of its tree. -/
theorem nodeCalls_eq (e : Expr) :
  nodeCalls fuel c scope w e = (nodeStep c scope e).calls fuel w
  := by
  cases e with
  | blank | integer | float | bool | null | string | functionValue => rfl
  | character id text =>
    rw [nodeStep]
    cases Value.ofCharacter text <;> rfl
  | «variable» id name =>
    rw [nodeStep]
    cases Fields.get? name scope with
    | some value => rfl
    | none =>
      dsimp only
      split <;> rfl
  | letIn id name value body =>
    refine congrArg (List.cons _) (Frame.after_congr fun value w => ?_)
    refine Eq.trans ?_ (Step.calls_ite _ _).symm
    exact ite_congr rfl (fun _ => rfl) fun _ => (Step.calls_last (.eval c _ body)).symm
  | list id items => exact (Step.calls_single fun result _ => by cases result <;> rfl).symm
  | record id fields => exact (Step.calls_single fun _ _ => rfl).symm
  | fieldAccess id object field =>
    exact (Step.calls_single fun value _ => by cases value <;> rfl).symm
  | lambda id parameters body =>
    rw [nodeStep]
    split
    · exact Frame.after_nil.symm
    · rfl
  | conditional id condition thenCase elseCase =>
    refine congrArg (List.cons _) (Frame.after_congr fun condition w => ?_)
    cases condition with
    | bool b =>
      cases b with
      | false => exact (takenStep_calls thenCase elseCase).symm
      | true => exact Step.calls_thenLookAt.symm
    | null => exact (takenStep_calls thenCase elseCase).symm
    | _ => exact Step.calls_thenLookAt.symm
  | featureFlag id condition oldCode newCode =>
    refine congrArg (List.cons _) (Frame.after_congr fun condition w => ?_)
    rcases condition with reason | value
    · exact (takenStep_calls newCode oldCode).symm
    · cases value with
      | bool b =>
        cases b with
        | false => exact (takenStep_calls newCode oldCode).symm
        | true => exact (takenStep_calls oldCode newCode).symm
      | _ => exact (takenStep_calls newCode oldCode).symm
  | constructor id name args =>
    unfold nodeStep
    dsimp only
    split
    · rfl
    · exact (Step.calls_single fun _ _ => rfl).symm
    · exact (Step.calls_single fun _ _ => rfl).symm
    · exact (Step.calls_single fun _ _ => rfl).symm
    · next hjust hok herror =>
      refine Eq.trans ?_ ((Step.calls_ite _ _).trans (ite_self [])).symm
      rw [Frame.nodeCalls.eq_def]
      dsimp only
      split
      · exact (hjust _ rfl rfl).elim
      · exact (hok _ rfl rfl).elim
      · exact (herror _ rfl rfl).elim
      · rfl
  | matchCases id scrutinee cases =>
    refine congrArg (List.cons _) (Frame.after_congr fun value w => ?_)
    refine (Step.calls_single fun chosen _ => ?_).symm
    cases chosen with
    | some result => rfl
    | none => exact (Step.calls_ite _ _).trans (ite_self _)
  | apply id callee args position railUse =>
    refine congrArg (List.cons _) (Frame.after_congr fun callee w => ?_)
    refine congrArg (List.cons _) (Frame.after_congr fun values w => ?_)
    refine (Step.calls_single fun result _ => ?_).symm
    cases position with
    | inPipe pipe => exact Step.calls_reportOne
    | notInPipe => rfl

theorem applyValueStep_calls (id : NodeId) (callee : Value) (args : List Value)
    (position : PipePosition) (railUse : RailUse) :
  callsOf fuel w (.applyValue c id callee args position railUse)
    = (applyValueStep c id callee args position railUse).calls fuel w
  := by
  unfold callsOf applyValueStep
  dsimp only
  cases callee.callable? with
  | some f => exact (Step.calls_last (.applyCallable c id f args position railUse)).symm
  | none => cases callee <;> cases position <;> rfl

theorem applyCallableStep_calls (id : NodeId) (f : Callable) (args : List Value)
    (position : PipePosition) (railUse : RailUse) :
  callsOf fuel w (.applyCallable c id f args position railUse)
    = (applyCallableStep c id f args position railUse).calls fuel w
  := by
  cases f with
  | named name => exact (Step.calls_last (.call c name id args position railUse)).symm
  | lambda parameters captured body =>
    unfold callsOf applyCallableStep
    dsimp only
    cases args.find? fun value => value.isIncomplete || value.isErrorRail with
    | some value => rfl
    | none =>
      refine Eq.trans ?_ (Step.calls_ite _ _).symm
      exact ite_congr rfl (fun _ => rfl) fun _ => (Step.calls_last (.eval c _ body)).symm

theorem callStep_calls (name : FunctionName) (id : NodeId) (args : List Value)
    (position : PipePosition) (railUse : RailUse) :
  callsOf fuel w (.call c name id args position railUse)
    = (callStep c name id args position railUse).calls fuel w
  := by
  rw [callsOf, callStep]
  cases args.find? Value.isErrorRail with
  | some value => rfl
  | none =>
    cases Assoc.get? name c.registry with
    | none =>
      dsimp only
      split
      · exact Frame.after_nil.symm
      · rfl
    | some f =>
      dsimp only
      split
      · rfl
      · cases args.find? fun value => value.isIncomplete || value.isFailure with
        | some value => cases position <;> cases value <;> rfl
        | none => exact (Step.calls_single fun _ _ => by cases railUse <;> rfl).symm

theorem carryOutStep_calls (f : Function) (id : NodeId) (args : List Value) :
  callsOf fuel w (.carryOut c f id args) = (carryOutStep c f id args).calls fuel w
  := by
  rw [callsOf, carryOutStep]
  cases f.implementation with
  | builtin b => exact (Step.calls_single fun _ _ => rfl).symm
  | written origin toplevel body =>
    dsimp only
    split
    · rfl
    · cases Typing.checkCall c.types f.parameterTypes args with
      | nil => exact (Step.calls_single fun _ _ => rfl).symm
      | cons error errors => rfl

theorem bodyStep_calls (f : Function) (toplevel : ToplevelId) (body : Expr) (site : CallSite)
    (args : List Value) :
  callsOf fuel w (.carryOutBody c f toplevel body site args)
    = (bodyStep c f toplevel body site args).calls fuel w
  := by
  rw [callsOf, bodyStep, Step.calls]
  refine Frame.after_congr fun _ w => Frame.after_congr fun recorded w => ?_
  cases recorded with
  | some result => exact Step.calls_record.symm
  | none => exact (Step.calls_single fun _ _ => Step.calls_record).symm

theorem builtinStep_calls (f : Function) (b : Builtin) (site : CallSite) (args : List Value) :
  callsOf fuel w (.carryOutBuiltin c f b site args)
    = (builtinStep c f b site args).calls fuel w
  := by
  refine Frame.after_congr fun recorded w => ?_
  cases recorded with
  | some result => rfl
  | none =>
    dsimp only
    split
    · rfl
    · refine Frame.after_congr fun known w => ?_
      refine (congrArg (List.cons _) (Eq.trans (Frame.after_congr fun outcome w => ?_)
        Frame.after_nil)).symm
      dsimp only
      split
      · exact Step.calls_record
      · rfl

/-- The calls of a function of the interpreter are those of its tree. -/
theorem Frame.callsOf_eq (fuel : Nat) (w : World) (activation : Activation) :
  callsOf fuel w activation = activation.step.calls fuel w
  := by
  cases activation with
  | eval c scope e => exact (Step.calls_single fun _ _ => Step.calls_reportOne).symm
  | lookAt c scope e => exact (Step.calls_single fun _ _ => rfl).symm
  | evalNode c scope e => exact nodeCalls_eq e
  | evalArgs c scope es =>
    cases es with
    | nil => rfl
    | cons e rest =>
      refine congrArg (List.cons _) (Frame.after_congr fun value w => ?_)
      exact (Step.calls_single fun _ _ => rfl).symm
  | evalItems c scope es =>
    cases es with
    | nil => rfl
    | cons e rest =>
      refine congrArg (List.cons _) (Frame.after_congr fun value w => ?_)
      dsimp only
      split
      · rfl
      · exact (Step.calls_single fun result _ => by cases result <;> rfl).symm
  | evalFields c scope fields =>
    cases fields with
    | nil => rfl
    | cons field rest =>
      refine Eq.trans (ite_congr rfl (fun _ => ?_) fun _ => ?_) (Step.calls_ite _ _).symm
      · exact (Step.calls_last (.evalFields c scope rest)).symm
      · refine congrArg (List.cons _) (Frame.after_congr fun value w => ?_)
        exact (Step.calls_single fun _ _ => rfl).symm
  | evalCases c scope value cases chosen =>
    cases cases with
    | nil => rfl
    | cons case rest =>
      obtain ⟨pattern, body⟩ := case
      refine Eq.trans (ite_congr rfl (fun _ => ?_) fun _ => ?_) (Step.calls_ite _ _).symm
      · refine congrArg (List.cons _) (Frame.after_congr fun result w => ?_)
        exact (Step.calls_patternReports (.evalCases c scope value rest (some result))).symm
      · refine congrArg (List.cons _) (Frame.after_congr fun _ w => ?_)
        exact (Step.calls_patternReports (.evalCases c scope value rest chosen)).symm
  | applyValue c id callee args position railUse =>
    exact applyValueStep_calls id callee args position railUse
  | applyCallable c id f args position railUse =>
    exact applyCallableStep_calls id f args position railUse
  | call c name id args position railUse => exact callStep_calls name id args position railUse
  | carryOut c f id args => exact carryOutStep_calls f id args
  | carryOutBody c f toplevel body site args =>
    exact bodyStep_calls f toplevel body site args
  | carryOutBuiltin c f b site args => exact builtinStep_calls f b site args
  | runSteps c caller steps =>
    cases steps with
    | finish | fail => rfl
    | apply f args position railUse next =>
      refine congrArg (List.cons _) (Frame.after_congr fun value w => ?_)
      exact (Step.calls_last (.runSteps c caller (next value))).symm

end

end Interpreter

end LiveExpr
