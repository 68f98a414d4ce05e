import LiveExpr.Eval.Interpreter

/-!
# Frames

What the interpreter is at work on during a run: each function of the interpreter under
way, with its fuel, its arguments and the world it was entered in. A frame calls others;
those it reaches are the states in which the run is seen. Main definitions: `Frame.calls`
and `Frame.Reaches`.
-/

namespace LiveExpr

/-- How a context comes about from the one of the caller. -/
inductive Context.Descends (c : Context) : Context → Prop where
  | same : Descends c c
  | aside : Descends c c.lookAside
  | called (name : FunctionName) (id : NodeId) : Descends c (c.inCall name id)
  | moved (toplevel : ToplevelId) : Descends c (c.inToplevel toplevel)

namespace Interpreter

/-- A function of the interpreter with its arguments. -/
inductive Activation where
  | eval (c : Context) (scope : Scope) (e : Expr)
  | lookAt (c : Context) (scope : Scope) (e : Expr)
  | evalNode (c : Context) (scope : Scope) (e : Expr)
  | evalArgs (c : Context) (scope : Scope) (es : List Expr)
  | evalItems (c : Context) (scope : Scope) (es : List Expr)
  | evalFields (c : Context) (scope : Scope) (fields : List (String × Expr))
  | evalCases (c : Context) (scope : Scope) (value : Value) (cases : List (Pattern × Expr))
      (chosen : Option Value)
  | applyValue (c : Context) (id : NodeId) (callee : Value) (args : List Value)
      (position : PipePosition) (railUse : RailUse)
  | applyCallable (c : Context) (id : NodeId) (f : Callable) (args : List Value)
      (position : PipePosition) (railUse : RailUse)
  | call (c : Context) (name : FunctionName) (id : NodeId) (args : List Value)
      (position : PipePosition) (railUse : RailUse)
  | carryOut (c : Context) (f : Function) (id : NodeId) (args : List Value)
  | carryOutBody (c : Context) (f : Function) (toplevel : ToplevelId) (body : Expr)
      (site : CallSite) (args : List Value)
  | carryOutBuiltin (c : Context) (f : Function) (b : Builtin) (site : CallSite)
      (args : List Value)
  | runSteps (c : Context) (caller : NodeId) (step : BuiltinStep)

namespace Activation

/-- The context that a function is at work in. What is looked at is looked at in
preview. -/
def context : Activation → Context
  | lookAt c _ _ => c.lookAside
  | eval c _ _ | evalNode c _ _ | evalArgs c _ _ | evalItems c _ _ | evalFields c _ _
  | evalCases c _ _ _ _ | applyValue c _ _ _ _ _ | applyCallable c _ _ _ _ _
  | call c _ _ _ _ _ | carryOut c _ _ _ | carryOutBody c _ _ _ _ _
  | carryOutBuiltin c _ _ _ _ | runSteps c _ _ => c

/-- The world that a function leaves. -/
def leaves (fuel : Nat) (w : World) : Activation → World
  | eval c scope e => (Interpreter.eval fuel c scope e w).2
  | lookAt c scope e => (Interpreter.lookAt fuel c scope e w).2
  | evalNode c scope e => (Interpreter.evalNode fuel c scope e w).2
  | evalArgs c scope es => (Interpreter.evalArgs fuel c scope es w).2
  | evalItems c scope es => (Interpreter.evalItems fuel c scope es w).2
  | evalFields c scope fields => (Interpreter.evalFields fuel c scope fields w).2
  | evalCases c scope value cases chosen =>
    (Interpreter.evalCases fuel c scope value cases chosen w).2
  | applyValue c id callee args position railUse =>
    (Interpreter.applyValue fuel c id callee args position railUse w).2
  | applyCallable c id f args position railUse =>
    (Interpreter.applyCallable fuel c id f args position railUse w).2
  | call c name id args position railUse =>
    (Interpreter.call fuel c name id args position railUse w).2
  | carryOut c f id args => (Interpreter.carryOut fuel c f id args w).2
  | carryOutBody c f toplevel body site args =>
    (Interpreter.carryOutBody fuel c f toplevel body site args w).2
  | carryOutBuiltin c f b site args =>
    (Interpreter.carryOutBuiltin fuel c f b site args w).2
  | runSteps c caller step => (Interpreter.runSteps fuel c caller step w).2

end Activation

/-- A function of the interpreter under way. -/
structure Frame where
  fuel : Nat
  activation : Activation
  world : World

namespace Frame

/-- The context that a frame is at work in. -/
def context (s : Frame) : Context :=
  s.activation.context

/-- The world that a frame leaves. -/
def leaves (s : Frame) : World :=
  s.activation.leaves s.fuel s.world

/-! ### Calls -/

/-- The calls that follow a run, if it ends with a value. -/
def after {α : Type} (run : Run α) (w : World) (next : α → World → List Frame) :
    List Frame :=
  match run w with
  | (.done value, w) => next value w
  | _ => []

/-- A look at one expression and the evaluation of another. -/
def takenCalls (fuel : Nat) (c : Context) (scope : Scope) (other taken : Expr) (w : World) :
    List Frame :=
  ⟨fuel, .lookAt c scope other, w⟩ :: after (lookAt fuel c scope other) w fun _ w =>
    [⟨fuel, .eval c scope taken, w⟩]

/-- The calls of the evaluation of a node. -/
def nodeCalls (fuel : Nat) (c : Context) (scope : Scope) (w : World) : Expr → List Frame
  | .letIn _ name value body =>
    ⟨fuel, .eval c scope value, w⟩ :: after (eval fuel c scope value) w fun value w =>
      if value.isErrorRail then []
      else
        [⟨fuel, .eval c (if name.isEmpty then scope else Fields.insert name value scope) body,
          w⟩]
  | .list _ items => [⟨fuel, .evalItems c scope items, w⟩]
  | .record _ fields => [⟨fuel, .evalFields c scope fields, w⟩]
  | .fieldAccess _ object _ => [⟨fuel, .eval c scope object, w⟩]
  | .conditional _ condition thenCase elseCase =>
    ⟨fuel, .eval c scope condition, w⟩ :: after (eval fuel c scope condition) w
      fun condition w =>
        match condition with
        | .bool false | .null => takenCalls fuel c scope thenCase elseCase w
        | condition =>
          if condition.isFake then
            ⟨fuel, .lookAt c scope thenCase, w⟩ :: after (lookAt fuel c scope thenCase) w
              fun _ w => [⟨fuel, .lookAt c scope elseCase, w⟩]
          else
            ⟨fuel, .eval c scope thenCase, w⟩ :: after (eval fuel c scope thenCase) w
              fun _ w => [⟨fuel, .lookAt c scope elseCase, w⟩]
  | .featureFlag _ condition oldCode newCode =>
    ⟨fuel, .eval c scope condition, w⟩ :: after (Run.caught (eval fuel c scope condition)) w
      fun condition w =>
        match condition with
        | .ok (.bool true) => takenCalls fuel c scope oldCode newCode w
        | _ => takenCalls fuel c scope newCode oldCode w
  | .constructor _ name args =>
    match name, args with
    | "Just", [arg] | "Ok", [arg] | "Error", [arg] => [⟨fuel, .eval c scope arg, w⟩]
    | _, _ => []
  | .matchCases _ scrutinee cases =>
    ⟨fuel, .eval c scope scrutinee, w⟩ :: after (eval fuel c scope scrutinee) w
      fun value w => [⟨fuel, .evalCases c scope value cases none, w⟩]
  | .apply id callee args position railUse =>
    ⟨fuel, .eval c scope callee, w⟩ :: after (eval fuel c scope callee) w fun callee w =>
      ⟨fuel, .evalArgs c scope args, w⟩ :: after (evalArgs fuel c scope args) w
        fun values w => [⟨fuel, .applyValue c id callee values position railUse, w⟩]
  | _ => []

/-- The calls of a function of the interpreter with one unit of fuel more. They follow the
interpreter case by case; that they are the calls of the tree that it runs, and so none is
missing, is `callsOf_eq`. -/
def callsOf (fuel : Nat) (w : World) : Activation → List Frame
  | .eval c scope e => [⟨fuel, .evalNode c scope e, w⟩]
  | .lookAt c scope e => [⟨fuel, .eval c.lookAside scope e, w⟩]
  | .evalNode c scope e => nodeCalls fuel c scope w e
  | .evalArgs _ _ [] => []
  | .evalArgs c scope (e :: rest) =>
    ⟨fuel, .eval c scope e, w⟩ :: after (eval fuel c scope e) w fun _ w =>
      [⟨fuel, .evalArgs c scope rest, w⟩]
  | .evalItems _ _ [] => []
  | .evalItems c scope (e :: rest) =>
    ⟨fuel, .eval c scope e, w⟩ :: after (eval fuel c scope e) w fun value w =>
      if value.isErrorRail then [] else [⟨fuel, .evalItems c scope rest, w⟩]
  | .evalFields _ _ [] => []
  | .evalFields c scope ((name, e) :: rest) =>
    if name.isEmpty then [⟨fuel, .evalFields c scope rest, w⟩]
    else
      ⟨fuel, .eval c scope e, w⟩ :: after (eval fuel c scope e) w fun _ w =>
        [⟨fuel, .evalFields c scope rest, w⟩]
  | .evalCases _ _ _ [] _ => []
  | .evalCases c scope value ((pattern, body) :: rest) chosen =>
    let m := Matching.check c.toplevel value pattern
    if chosen.isNone && m.matched then
      ⟨fuel, .eval c (m.extend scope) body, w⟩ :: after (eval fuel c (m.extend scope) body) w
        fun result w => after (reportPattern c c.onPath m.reports) w fun _ w =>
          [⟨fuel, .evalCases c scope value rest (some result), w⟩]
    else
      ⟨fuel, .lookAt c (m.extend scope) body, w⟩
        :: after (lookAt fuel c (m.extend scope) body) w fun _ w =>
          after (reportPattern c false m.reports) w fun _ w =>
            [⟨fuel, .evalCases c scope value rest chosen, w⟩]
  | .applyValue c id callee args position railUse =>
    match callee.callable? with
    | some f => [⟨fuel, .applyCallable c id f args position railUse, w⟩]
    | none => []
  | .applyCallable c id f args position railUse =>
    match f with
    | .named name => [⟨fuel, .call c name id args position railUse, w⟩]
    | .lambda parameters scope body =>
      match args.find? fun value => value.isIncomplete || value.isErrorRail with
      | some _ => []
      | none =>
        if parameters.length ≠ args.length then []
        else [⟨fuel, .eval c (Fields.extend scope ((parameters.map Prod.snd).zip args)) body, w⟩]
  | .call c name id args _ _ =>
    match args.find? Value.isErrorRail with
    | some _ => []
    | none =>
      match Assoc.get? name c.registry with
      | none => []
      | some f =>
        if f.parameters.length ≠ args.length then []
        else
          match args.find? fun value => value.isIncomplete || value.isFailure with
          | some _ => []
          | none => [⟨fuel, .carryOut c f id args, w⟩]
  | .carryOut c f id args =>
    match f.implementation with
    | .builtin b =>
      [⟨fuel, .carryOutBuiltin (c.inCall f.name id) f b (c.site f.name id) args, w⟩]
    | .written _ toplevel body =>
      if c.mode = .preview ∧ (c.stack.outerCall? f.name).isSome then []
      else
        match Typing.checkCall c.types f.parameterTypes args with
        | _ :: _ => []
        | [] =>
          [⟨fuel, .carryOutBody (c.inCall f.name id) f toplevel body (c.site f.name id) args, w⟩]
  | .carryOutBody c f toplevel body site args =>
    after (Run.enter c toplevel) w fun _ w =>
      after (Run.loadIf c.mode.replaysResults c site args) w fun recorded w =>
        match recorded with
        | some _ => []
        | none =>
          let scope := Fields.ofPairs ((f.parameters.map Parameter.name).zip args)
          [⟨fuel, .eval (c.inToplevel toplevel) scope body, w⟩]
  | .carryOutBuiltin c f b site args =>
    after (Run.loadIf (c.mode.replaysResults && f.previewability != .repeatable) c site args) w
      fun recorded w =>
        match recorded with
        | some _ => []
        | none =>
          if f.previewability = .impure ∧ ¬ c.mode.allowsImpureCalls then []
          else after (Run.invoke c f args) w fun known w =>
            [⟨fuel, .runSteps c site.caller (b.run known args), w⟩]
  | .runSteps c caller step =>
    match step with
    | .finish _ | .fail _ => []
    | .apply f args position railUse next =>
      ⟨fuel, .applyCallable c caller f args position railUse, w⟩
        :: after (applyCallable fuel c caller f args position railUse) w fun value w =>
          [⟨fuel, .runSteps c caller (next value), w⟩]

/-- The frames that a frame calls itself. -/
def calls : Frame → List Frame
  | ⟨0, _, _⟩ => []
  | ⟨fuel + 1, activation, w⟩ => callsOf fuel w activation

/-- At most the payload of a constructor is evaluated. -/
theorem constructor_calls {fuel : Nat} {c : Context} {scope : Scope} {w : World} {id : NodeId}
    {name : String} {args : List Expr} :
  nodeCalls fuel c scope w (.constructor id name args) = []
    ∨ ∃ arg ∈ args, nodeCalls fuel c scope w (.constructor id name args)
      = [⟨fuel, .eval c scope arg, w⟩]
  := by
  rw [nodeCalls.eq_def]
  dsimp only
  split
  · exact .inr ⟨_, List.mem_cons_self, rfl⟩
  · exact .inr ⟨_, List.mem_cons_self, rfl⟩
  · exact .inr ⟨_, List.mem_cons_self, rfl⟩
  · exact .inl rfl

/-- The calls that follow a run follow a value of it. -/
theorem mem_after {α : Type} {run : Run α} {w : World} {next : α → World → List Frame}
    {t : Frame} (h : t ∈ after run w next) :
  ∃ value w', run w = (.done value, w') ∧ t ∈ next value w'
  := by
  rw [after] at h
  split at h
  · next value w' hrun => exact ⟨value, w', hrun, h⟩
  · cases h

/-- Whether a frame is another, or is under way during it. -/
inductive Reaches : Frame → Frame → Prop where
  | refl (s : Frame) : Reaches s s
  | step {s t u : Frame} (h : t ∈ s.calls) (hreaches : Reaches t u) : Reaches s u

/-- Whether a test holds of all frames that a frame reaches, and these are not too deep. -/
def passes (test : Frame → Bool) : Nat → Frame → Bool
  | 0, _ => false
  | depth + 1, s => test s && s.calls.all (passes test depth)

theorem of_passes {test : Frame → Bool} {depth : Nat} {s t : Frame}
    (h : passes test depth s = true) (ht : s.Reaches t) :
  test t = true
  := by
  induction ht generalizing depth with
  | refl s =>
    cases depth with
    | zero => cases h
    | succ depth => exact ((Bool.and_eq_true _ _).mp h).1
  | step hmem _ ih =>
    cases depth with
    | zero => cases h
    | succ depth => exact ih (List.all_eq_true.mp ((Bool.and_eq_true _ _).mp h).2 _ hmem)

/-! ### Contexts of frames -/

/-- Whether calls are those of a frame in a context with one unit of fuel more. -/
def AllBelow (fuel : Nat) (c : Context) (calls : List Frame) : Prop :=
  ∀ t ∈ calls, t.fuel = fuel ∧ c.Descends t.context

variable {fuel : Nat} {c : Context} {scope : Scope} {w : World}

theorem AllBelow.nil :
  AllBelow fuel c []
  := List.forall_mem_nil _

theorem AllBelow.cons {activation : Activation} {calls : List Frame}
    (h : c.Descends activation.context) (hcalls : AllBelow fuel c calls) :
  AllBelow fuel c (⟨fuel, activation, w⟩ :: calls)
  := List.forall_mem_cons.mpr ⟨⟨rfl, h⟩, hcalls⟩

theorem AllBelow.single {activation : Activation} (h : c.Descends activation.context) :
  AllBelow fuel c [⟨fuel, activation, w⟩]
  := .cons h .nil

theorem AllBelow.after {α : Type} {run : Run α} {next : α → World → List Frame}
    (h : ∀ value w', AllBelow fuel c (next value w')) :
  AllBelow fuel c (after run w next)
  := by
  intro t ht
  obtain ⟨value, w', -, ht⟩ := mem_after ht
  exact h value w' t ht

theorem takenCalls_below {other taken : Expr} :
  AllBelow fuel c (takenCalls fuel c scope other taken w)
  := by
  apply AllBelow.cons .aside (.after fun _ _ => ?_)
  exact .single .same

theorem nodeCalls_below (e : Expr) :
  AllBelow fuel c (nodeCalls fuel c scope w e)
  := by
  cases e with
  | blank | integer | float | bool | null | string | character | functionValue
  | «variable» | lambda => exact .nil
  | list | record | fieldAccess => exact .single .same
  | letIn id name value body =>
    apply AllBelow.cons .same (.after fun value w' => ?_)
    split
    · exact .nil
    · exact .single .same
  | conditional id condition thenCase elseCase =>
    apply AllBelow.cons .same (.after fun value w' => ?_)
    split
    · exact takenCalls_below
    · exact takenCalls_below
    · split
      · apply AllBelow.cons .aside (.after fun _ _ => ?_)
        exact .single .aside
      · apply AllBelow.cons .same (.after fun _ _ => ?_)
        exact .single .aside
  | featureFlag id condition oldCode newCode =>
    apply AllBelow.cons .same (.after fun value w' => ?_)
    split
    · exact takenCalls_below
    · exact takenCalls_below
  | constructor id name args =>
    rcases constructor_calls with hcalls | ⟨arg, -, hcalls⟩
    · rw [hcalls]
      exact .nil
    · rw [hcalls]
      exact .single .same
  | matchCases id scrutinee cases =>
    apply AllBelow.cons .same (.after fun _ _ => ?_)
    exact .single .same
  | apply id callee args position railUse =>
    apply AllBelow.cons .same (.after fun _ _ => ?_)
    apply AllBelow.cons .same (.after fun _ _ => ?_)
    exact .single .same

theorem callsOf_below (activation : Activation) :
  AllBelow fuel activation.context (callsOf fuel w activation)
  := by
  cases activation with
  | eval | lookAt => exact .single .same
  | evalNode c scope e => exact nodeCalls_below e
  | evalArgs c scope es =>
    cases es with
    | nil => exact .nil
    | cons e rest =>
      apply AllBelow.cons .same (.after fun _ _ => ?_)
      exact .single .same
  | evalItems c scope es =>
    cases es with
    | nil => exact .nil
    | cons e rest =>
      apply AllBelow.cons .same (.after fun _ _ => ?_)
      split
      · exact .nil
      · exact .single .same
  | evalFields c scope fields =>
    cases fields with
    | nil => exact .nil
    | cons field rest =>
      rw [callsOf]
      split
      · exact .single .same
      · apply AllBelow.cons .same (.after fun _ _ => ?_)
        exact .single .same
  | evalCases c scope value cases chosen =>
    cases cases with
    | nil => exact .nil
    | cons case rest =>
      rw [callsOf]
      split
      · apply AllBelow.cons .same (.after fun _ _ => ?_)
        apply AllBelow.after fun _ _ => ?_
        exact .single .same
      · apply AllBelow.cons .aside (.after fun _ _ => ?_)
        apply AllBelow.after fun _ _ => ?_
        exact .single .same
  | applyValue c id callee args position railUse =>
    rw [callsOf]
    split
    · exact .single .same
    · exact .nil
  | applyCallable c id f args position railUse =>
    cases f with
    | named name => exact .single .same
    | lambda parameters captured body =>
      rw [callsOf]
      split
      · exact .nil
      · split
        · exact .nil
        · exact .single .same
  | call c name id args position railUse =>
    rw [callsOf]
    split
    · exact .nil
    · split
      · exact .nil
      · split
        · exact .nil
        · split
          · exact .nil
          · exact .single .same
  | carryOut c f id args =>
    rw [callsOf]
    split
    · exact .single (.called f.name id)
    · split
      · exact .nil
      · split
        · exact .nil
        · exact .single (.called f.name id)
  | carryOutBody c f toplevel body site args =>
    rw [callsOf]
    apply AllBelow.after fun _ _ => ?_
    apply AllBelow.after fun _ _ => ?_
    split
    · exact .nil
    · exact .single (.moved toplevel)
  | carryOutBuiltin c f b site args =>
    apply AllBelow.after fun _ _ => ?_
    split
    · exact .nil
    · split
      · exact .nil
      · apply AllBelow.after fun _ _ => ?_
        exact .single .same
  | runSteps c caller step =>
    cases step with
    | finish | fail => exact .nil
    | apply f args position railUse next =>
      apply AllBelow.cons .same (.after fun _ _ => ?_)
      exact .single .same

theorem descends_of_mem_calls {s t : Frame} (h : t ∈ s.calls) :
  t.fuel + 1 = s.fuel ∧ s.context.Descends t.context
  := by
  obtain ⟨fuel, activation, w⟩ := s
  cases fuel with
  | zero => cases h
  | succ fuel =>
    obtain ⟨hfuel, hcontext⟩ := callsOf_below activation t h
    exact ⟨congrArg (· + 1) hfuel, hcontext⟩

/-- What evaluation hands down holds of all contexts that it reaches. -/
theorem Reaches.handsDown {p : Context → Prop}
    (hp : ∀ {c c'}, Context.Descends c c' → p c → p c') {s t : Frame} (h : s.Reaches t)
    (hs : p s.context) :
  p t.context
  := by
  induction h with
  | refl s => exact hs
  | step h _ ih => exact ih (hp (descends_of_mem_calls h).2 hs)

end Frame

end Interpreter

end LiveExpr
