import LiveExpr.Proofs.Erasure
import LiveExpr.Proofs.Invariance
import LiveExpr.Stdlib

/-!
# Evaluation is not observed

A run for real has the value and the impure calls of erased evaluation: nothing that is
looked at in preview, and nothing that a store keeps, finds its way back into it. Main
statement: `eval_erased`.
-/

namespace LiveExpr

/-- The impure call that an event reports. -/
def Event.impureCall? : Event → Option ImpureCall
  | .invoke f args => if f.previewability = .impure then some (f.name, args) else none
  | _ => none

/-- The impure calls so far, in order. -/
def World.impureCalls (w : World) : List ImpureCall :=
  w.log.reverse.filterMap fun entry => entry.2.impureCall?

/-- The events after a further one. -/
theorem impureCalls_cons (c : Context) (event : Event) (log : List (Context × Event)) :
  ((c, event) :: log).reverse.filterMap (fun entry => entry.2.impureCall?)
    = log.reverse.filterMap (fun entry => entry.2.impureCall?) ++ event.impureCall?.toList
  := by
  rw [List.reverse_cons, List.filterMap_append]
  cases h : event.impureCall? <;> simp [h]

/-- Whether no report makes a store fail. -/
def TraceStore.IsReliable (store : TraceStore) : Prop :=
  ∀ id, store.failsAfter id = false

namespace TraceStore.IsReliable

variable {store : TraceStore}

/-- A store that does not fail does not fail after a report. -/
theorem report (h : store.IsReliable) {executed : Bool} {id : NodeId} {value : Value} :
  (store.report executed id value).IsReliable
  := fun other => failsAfter_report.trans (h other)

/-- A store that does not fail does not fail after a toplevel was entered. -/
theorem enter (h : store.IsReliable) {toplevel : ToplevelId} :
  (store.enter toplevel).IsReliable
  := fun id => failsAfter_enter.trans (h id)

/-- A store that does not fail does not fail after a result was recorded. -/
theorem record (h : store.IsReliable) {site : CallSite} {hash : String} {value : Value} :
  (store.record site hash value).IsReliable
  := fun id => failsAfter_record.trans (h id)

end TraceStore.IsReliable

/-- Whether the clock shows a time and the store does not fail. -/
def World.IsSteady (now : Timestamp) (w : World) : Prop :=
  w.now = now ∧ w.store.IsReliable

/-- Whether, beside, these are the impure calls so far. -/
def World.IsStill (now : Timestamp) (calls : List ImpureCall) (w : World) : Prop :=
  w.IsSteady now ∧ w.impureCalls = calls

namespace Run

variable {α β : Type} {now : Timestamp} {kind : α → Prop}

/-- A run that makes no impure call and does not fault. -/
def IsQuiet (now : Timestamp) (kind : α → Prop) (run : Run α) : Prop :=
  ∀ calls, Keeps (World.IsStill now calls) False kind run

variable {c : Context}

/-- A report changes nothing that evaluation sees. -/
theorem report_isQuiet {executed : Bool} {id : NodeId} {value : Value} :
  IsQuiet now (fun _ => True) (report c executed id value)
  := by
  intro calls
  apply Keeps.report
  · rintro w ⟨⟨hnow, hstore⟩, hcalls⟩
    refine ⟨⟨hnow, hstore.report⟩, ?_⟩
    rw [World.impureCalls, impureCalls_cons, ← hcalls]
    exact List.append_nil _
  · rintro w ⟨⟨-, hstore⟩, -⟩ hfails
    rw [hstore.report id] at hfails
    cases hfails

/-- Entering a toplevel changes nothing that evaluation sees. -/
theorem enter_isQuiet {toplevel : ToplevelId} :
  IsQuiet now (fun _ => True) (enter c toplevel)
  := by
  rintro calls w ⟨⟨hnow, hstore⟩, hcalls⟩
  refine ⟨⟨⟨hnow, hstore.enter⟩, ?_⟩, trivial⟩
  rw [World.impureCalls, enter, impureCalls_cons, ← hcalls]
  exact List.append_nil _

/-- A look-up changes nothing that evaluation sees. -/
theorem load_isQuiet {site : CallSite} {args : List Value} :
  IsQuiet now (fun _ => True) (load c site args)
  := by
  intro calls
  apply Keeps.load trivial
  rintro w hash ⟨hsteady, hcalls⟩
  refine ⟨⟨hsteady, ?_⟩, trivial⟩
  rw [World.impureCalls, impureCalls_cons, ← hcalls]
  exact List.append_nil _

/-- A recorded result changes nothing that evaluation for real sees. -/
theorem record_isQuiet {site : CallSite} {args : List Value} {value : Value} :
  IsQuiet now (fun _ => True) (record c site args value)
  := by
  intro calls
  apply Keeps.record
  rintro w hash ⟨⟨hnow, hstore⟩, hcalls⟩
  refine ⟨⟨hnow, hstore.record⟩, ?_⟩
  rw [World.impureCalls, impureCalls_cons, ← hcalls]
  exact List.append_nil _

/-- A built-in that is not impure changes nothing that evaluation sees. -/
theorem invoke_isQuiet {f : Function} {args : List Value}
    (hf : f.previewability ≠ .impure) :
  IsQuiet now (fun _ => True) (invoke c f args)
  := by
  rintro calls w ⟨hsteady, hcalls⟩
  refine ⟨⟨hsteady, ?_⟩, trivial⟩
  rw [World.impureCalls, invoke, impureCalls_cons, ← hcalls, Event.impureCall?, if_neg hf]
  exact List.append_nil _

/-! ### Erasure of runs -/

/-- Whether a run ends like an erased run, after the same impure calls, if its fuel
suffices. -/
def ErasesTo (now : Timestamp) (run : Run α) (effect : Effect α) : Prop :=
  ∀ w, w.IsSteady now → (run w).1 = .outOfFuel ∨
    (run w).2.IsSteady now ∧ (run w).1 = effect.outcome
      ∧ (run w).2.impureCalls = w.impureCalls ++ effect.calls

theorem ErasesTo.done {value : α} :
  ErasesTo now (pure value) (pure value)
  := by
  intro w hw
  exact .inr ⟨hw, rfl, (List.append_nil _).symm⟩

theorem ErasesTo.outOfFuel {effect : Effect α} :
  ErasesTo now outOfFuel effect
  := by
  intro w hw
  exact .inl rfl

theorem ErasesTo.fault {reason : Option String} :
  ErasesTo now (fault reason : Run α) (.fault reason)
  := by
  intro w hw
  exact .inr ⟨hw, rfl, (List.append_nil _).symm⟩

/-- Runs that erase one after another erase together. -/
theorem ErasesTo.bind {run : Run α} {effect : Effect α} {next : α → Run β}
    {next' : α → Effect β} (hrun : ErasesTo now run effect)
    (hnext : ∀ value, ErasesTo now (next value) (next' value)) :
  ErasesTo now (run >>= next) (effect >>= next')
  := by
  intro w hw
  change (andThen run next w).1 = _ ∨ (andThen run next w).2.IsSteady now
    ∧ (andThen run next w).1 = (effect.andThen next').outcome
    ∧ (andThen run next w).2.impureCalls = w.impureCalls ++ (effect.andThen next').calls
  rw [andThen]
  have h := hrun w hw
  generalize run w = r at h
  obtain ⟨outcome, w'⟩ := r
  obtain ⟨outcome', calls⟩ := effect
  rcases h with rfl | ⟨hw', rfl, hcalls⟩
  · exact .inl rfl
  · cases outcome with
    | done value =>
      rcases hnext value w' hw' with hfuel | ⟨hw'', houtcome, hcalls'⟩
      · exact .inl hfuel
      · refine .inr ⟨hw'', houtcome, ?_⟩
        rw [hcalls', hcalls, List.append_assoc]
        rfl
    | fault reason => exact .inr ⟨hw', rfl, hcalls⟩
    | outOfFuel => exact .inl rfl

/-- A fault that is caught is caught in the erased run. -/
theorem ErasesTo.caught {run : Run α} {effect : Effect α} (h : ErasesTo now run effect) :
  ErasesTo now (caught run) effect.caught
  := by
  intro w hw
  have h := h w hw
  rw [Run.caught]
  generalize run w = r at h
  obtain ⟨outcome, w'⟩ := r
  obtain ⟨outcome', calls⟩ := effect
  rcases h with rfl | ⟨hw', rfl, hcalls⟩
  · exact .inl rfl
  · cases outcome with
    | done value => exact .inr ⟨hw', rfl, hcalls⟩
    | fault reason => exact .inr ⟨hw', rfl, hcalls⟩
    | outOfFuel => exact .inl rfl

/-- A quiet run leaves no trace in an erased run. -/
theorem ErasesTo.skip {run : Run α} {next : α → Run β} {effect : Effect β}
    (hrun : IsQuiet now kind run)
    (hnext : ∀ value, kind value → ErasesTo now (next value) effect) :
  ErasesTo now (run >>= next) effect
  := by
  intro w hw
  change (andThen run next w).1 = _ ∨ (andThen run next w).2.IsSteady now
    ∧ (andThen run next w).1 = effect.outcome
    ∧ (andThen run next w).2.impureCalls = w.impureCalls ++ effect.calls
  rw [andThen]
  obtain ⟨⟨hw', hcalls⟩, hvalue⟩ := hrun w.impureCalls w ⟨hw, rfl⟩
  generalize run w = r at hw' hcalls hvalue
  obtain ⟨outcome, w'⟩ := r
  cases outcome with
  | done value =>
    dsimp only at hw' hcalls
    rw [← hcalls]
    exact hnext value hvalue w' hw'
  | fault reason => cases hvalue
  | outOfFuel => exact .inl rfl

/-- A quiet run that can only have one value erases to that value. -/
theorem ErasesTo.ofQuiet {run : Run α} {value : α} (h : IsQuiet now (· = value) run) :
  ErasesTo now run (pure value)
  := by
  intro w hw
  obtain ⟨⟨hw', hcalls⟩, hvalue⟩ := h w.impureCalls w ⟨hw, rfl⟩
  generalize run w = r at hw' hcalls hvalue
  obtain ⟨outcome, w'⟩ := r
  cases outcome with
  | done value' =>
    cases hvalue
    exact .inr ⟨hw', rfl, hcalls.trans (List.append_nil _).symm⟩
  | fault reason => cases hvalue
  | outOfFuel => exact .inl rfl

/-- An impure built-in leaves its call in an erased run. -/
theorem ErasesTo.invoke {f : Function} {args : List Value} {next : BuiltinContext → Run β}
    {next' : Effect β}
    (hnext : ∀ turn calls, ErasesTo now (next ⟨now, c.sharing c.mode turn, calls⟩) next') :
  ErasesTo now (invoke c f args >>= next) (Effect.invoke f args >>= fun _ => next')
  := by
  rintro w ⟨rfl, hstore⟩
  let calls := (Assoc.get? f.name w.calls).getD 0 + 1
  let w' : World := { w with
    calls := Assoc.set f.name calls w.calls
    turns := fun mode => if mode = c.mode then w.turns c.mode + 1 else w.turns mode
    log := (c, .invoke f args) :: w.log }
  have hcalls : w'.impureCalls = w.impureCalls ++ (Effect.invoke f args).calls := by
    rw [World.impureCalls, impureCalls_cons]
    congr 1
    rw [Event.impureCall?, Effect.invoke]
    split <;> rfl
  rcases hnext (w.turns c.mode) calls w' ⟨rfl, hstore⟩ with hfuel | ⟨hw'', houtcome, hcalls'⟩
  · exact .inl hfuel
  · refine .inr ⟨hw'', houtcome, ?_⟩
    exact hcalls'.trans (by rw [hcalls, List.append_assoc]; rfl)

end Run

/-! ### Previews -/

namespace Interpreter

variable {now : Timestamp}

/-- Whatever is evaluated in preview is quiet: no impure built-in is carried out. -/
theorem stable_quiet (now : Timestamp) (calls : List ImpureCall) :
  Stable (fun c => c.mode = .preview) (fun _ => True) (fun _ => True)
    (World.IsStill now calls) False
  where
  toClosedKind := ClosedKind.trivial
  lookAside _ := rfl
  inCall hc := hc
  inToplevel hc _ _ := hc
  builtin _ _ _ _ _ := BuiltinStep.within_trivial _
  report _ _ := Run.report_isQuiet calls
  enter _ := Run.enter_isQuiet calls
  load _ := (Run.load_isQuiet calls).mono id (fun _ _ _ _ => trivial)
  record _ _ _ := Run.record_isQuiet calls
  invoke {c f args} hc himpure := by
    have hf : f.previewability ≠ .impure := by
      intro hf
      have hreal := himpure hf
      rw [hc] at hreal
      cases hreal
    exact Run.invoke_isQuiet hf calls

/-- A look at code changes nothing that evaluation sees. -/
theorem lookAt_isQuiet {fuel : Nat} {c : Context} {scope : Scope} {e : Expr} :
  Run.IsQuiet now (fun _ => True) (lookAt fuel c scope e)
  := by
  cases fuel with
  | zero => exact fun _ => Run.Keeps.outOfFuel
  | succ fuel =>
    intro calls
    rw [lookAt]
    have h := (stable_quiet now calls).kept fuel
    apply Run.Keeps.bind (h.eval e rfl fun _ _ => trivial)
    intro _ _
    exact Run.Keeps.done trivial

/-- The reports of a pattern are quiet. -/
theorem reportPattern_isQuiet {c : Context} {executed : Bool}
    {reports : List (NodeId × Value)} :
  Run.IsQuiet now (fun _ => True) (reportPattern c executed reports)
  := fun calls => reportPattern_keeps_of_report fun _ _ => Run.report_isQuiet calls

/-- The cases after the one that is taken are quiet and leave its value alone. -/
theorem evalCases_isQuiet {c : Context} {scope : Scope} {value result : Value} (fuel : Nat)
    (cases : List (Pattern × Expr)) :
  Run.IsQuiet now (· = some result) (evalCases fuel c scope value cases (some result))
  := by
  intro calls
  apply evalCases_keeps_chosen
  · exact fun _ _ _ => lookAt_isQuiet calls
  · exact fun _ _ => Run.report_isQuiet calls

end Interpreter

/-! ### Evaluation -/

/-- Whether built-ins are functions of their arguments and the time: they do not depend on
how often they were called, nor on what maps have in common at a call. -/
def Registry.IsFunctional (registry : Registry) (sharing : Nat → Sharing) : Prop :=
  ∀ name f b, Assoc.get? name registry = some f → f.implementation = .builtin b →
    ∀ now turn turn' i j args,
      b.run ⟨now, sharing turn, i⟩ args = b.run ⟨now, sharing turn', j⟩ args

/-- The built-ins of the standard library do not depend on how often they were called. -/
theorem Stdlib.run_eq_of_mem {f : Function} {b : Builtin} (hf : f ∈ Stdlib.contents)
    (hb : f.implementation = .builtin b) (now : Timestamp) (sharing : Sharing) (i j : Nat)
    (args : List Value) :
  b.run ⟨now, sharing, i⟩ args = b.run ⟨now, sharing, j⟩ args
  := by
  rcases Stdlib.cases_of_mem hf with ⟨run, -, -, himplementation⟩ | ⟨-, himplementation⟩
    | ⟨-, himplementation⟩ | ⟨-, himplementation⟩
  all_goals
    rw [himplementation] at hb
    cases hb
    rfl

/-- The standard library stays functional with further built-ins that are functions, if
maps always have the same in common. -/
theorem Registry.isFunctional_addAll {fs : List Function}
    (hfs : ∀ f ∈ fs, ∀ b, f.implementation = .builtin b →
      ∀ now sharing i j args, b.run ⟨now, sharing, i⟩ args = b.run ⟨now, sharing, j⟩ args)
    (sharing : Sharing) :
  (Stdlib.registry.addAll fs).IsFunctional fun _ => sharing
  := by
  intro name f b hf hb now _ _
  rcases Stdlib.mem_of_get?_addAll hf with hmem | hmem
  · exact hfs f hmem b hb now sharing
  · exact Stdlib.run_eq_of_mem hmem hb now sharing

namespace Context

/-- What of a context erased evaluation depends on. -/
def setting (c : Context) (now : Timestamp) : Setting where
  toplevel := c.toplevel
  registry := c.registry
  types := c.types
  now
  -- to built-ins that are functions, one call is like any other
  sharing := c.sharing .real 0

/-- Whether code is run for real, among built-ins that are functions. -/
def IsReal (c : Context) : Prop :=
  c.mode = .real ∧ c.registry.IsFunctional (c.sharing .real)

end Context

namespace Interpreter

open Run (ErasesTo)

/-- What erased evaluation with enough fuel has to do with evaluation with some fuel. -/
structure Simulated (now : Timestamp) (fuel more : Nat) : Prop where
  eval : ∀ {c scope} e, c.IsReal →
    ErasesTo now (eval fuel c scope e) (Erased.eval more (c.setting now) scope e)
  evalNode : ∀ {c scope} e, c.IsReal →
    ErasesTo now (evalNode fuel c scope e) (Erased.eval more (c.setting now) scope e)
  evalArgs : ∀ {c scope} es, c.IsReal →
    ErasesTo now (evalArgs fuel c scope es) (Erased.evalArgs more (c.setting now) scope es)
  evalItems : ∀ {c scope} es, c.IsReal →
    ErasesTo now (evalItems fuel c scope es)
      (Erased.evalItems more (c.setting now) scope es)
  evalFields : ∀ {c scope} es, c.IsReal →
    ErasesTo now (evalFields fuel c scope es)
      (Erased.evalFields more (c.setting now) scope es)
  evalCases : ∀ {c scope value} cases, c.IsReal →
    ErasesTo now (evalCases fuel c scope value cases none)
      (Erased.evalCases more (c.setting now) scope value cases)
  applyValue : ∀ {c id callee args position railUse}, c.IsReal →
    ErasesTo now (applyValue fuel c id callee args position railUse)
      (Erased.applyValue more (c.setting now) id callee args position railUse)
  applyCallable : ∀ {c id f args position railUse}, c.IsReal →
    ErasesTo now (applyCallable fuel c id f args position railUse)
      (Erased.applyCallable more (c.setting now) id f args position railUse)
  call : ∀ {c name id args position railUse}, c.IsReal →
    ErasesTo now (call fuel c name id args position railUse)
      (Erased.call more (c.setting now) name id args position railUse)
  carryOut : ∀ {c name f id args}, c.IsReal →
    Assoc.get? name c.registry = some f →
    ErasesTo now (carryOut fuel c f id args)
      (Erased.carryOut more (c.setting now) f id args)
  carryOutBody : ∀ {c f toplevel body site args}, c.IsReal →
    ErasesTo now (carryOutBody fuel c f toplevel body site args)
      (Erased.carryOutBody more (c.setting now) f toplevel body args)
  carryOutBuiltin : ∀ {c name f b site args}, c.IsReal →
    Assoc.get? name c.registry = some f → f.implementation = .builtin b →
    ErasesTo now (carryOutBuiltin fuel c f b site args)
      (Erased.carryOutBuiltin more (c.setting now) f b site.caller args)
  runSteps : ∀ {c caller} step, c.IsReal →
    ErasesTo now (runSteps fuel c caller step)
      (Erased.runSteps more (c.setting now) caller step)

variable {fuel more : Nat} {c : Context} {scope : Scope}

/-- The report of a node is erased. -/
theorem eval_erases (ih : Simulated now fuel more) (e : Expr) (hc : c.IsReal) :
  ErasesTo now (eval (fuel + 1) c scope e) (Erased.eval more (c.setting now) scope e)
  := by
  rw [eval, ← Effect.bind_pure (Erased.eval _ _ _ _)]
  apply ErasesTo.bind (ih.evalNode e hc)
  intro value
  apply ErasesTo.skip Run.report_isQuiet
  intro _ _
  exact ErasesTo.done

/-- Arguments erase one after another. -/
theorem evalArgs_erases (ih : Simulated now fuel more) (es : List Expr) (hc : c.IsReal) :
  ErasesTo now (evalArgs (fuel + 1) c scope es)
    (Erased.evalArgs (more + 1) (c.setting now) scope es)
  := by
  cases es with
  | nil => exact ErasesTo.done
  | cons e rest =>
    rw [evalArgs, Erased.evalArgs]
    apply ErasesTo.bind (ih.eval e hc)
    intro value
    apply ErasesTo.bind (ih.evalArgs rest hc)
    intro values
    exact ErasesTo.done

/-- Items erase one after another, up to the first on the error rail. -/
theorem evalItems_erases (ih : Simulated now fuel more) (es : List Expr) (hc : c.IsReal) :
  ErasesTo now (evalItems (fuel + 1) c scope es)
    (Erased.evalItems (more + 1) (c.setting now) scope es)
  := by
  cases es with
  | nil => exact ErasesTo.done
  | cons e rest =>
    rw [evalItems, Erased.evalItems]
    apply ErasesTo.bind (ih.eval e hc)
    intro value
    split
    · exact ErasesTo.done
    · apply ErasesTo.bind (ih.evalItems rest hc)
      rintro (rail | values)
      · exact ErasesTo.done
      · exact ErasesTo.done

/-- Fields erase one after another. -/
theorem evalFields_erases (ih : Simulated now fuel more) (es : List (String × Expr))
    (hc : c.IsReal) :
  ErasesTo now (evalFields (fuel + 1) c scope es)
    (Erased.evalFields (more + 1) (c.setting now) scope es)
  := by
  cases es with
  | nil => exact ErasesTo.done
  | cons field rest =>
    obtain ⟨name, e⟩ := field
    rw [evalFields, Erased.evalFields]
    split
    · exact ih.evalFields rest hc
    · apply ErasesTo.bind (ih.eval e hc)
      intro value
      apply ErasesTo.bind (ih.evalFields rest hc)
      intro pairs
      exact ErasesTo.done

/-- The cases that are not taken are looked at only. -/
theorem evalCases_erases (ih : Simulated now fuel more) {value : Value}
    (cases : List (Pattern × Expr)) (hc : c.IsReal) :
  ErasesTo now (evalCases (fuel + 1) c scope value cases none)
    (Erased.evalCases (more + 1) (c.setting now) scope value cases)
  := by
  cases cases with
  | nil => exact ErasesTo.done
  | cons case rest =>
    obtain ⟨pattern, body⟩ := case
    rw [evalCases, Erased.evalCases]
    change ErasesTo now (if (Matching.check c.toplevel value pattern).matched = true then _
      else _) (if (Matching.check c.toplevel value pattern).matched = true then _ else _)
    split
    · apply ErasesTo.bind (ih.eval body hc)
      intro result
      apply ErasesTo.skip reportPattern_isQuiet
      intro _ _
      exact ErasesTo.ofQuiet (evalCases_isQuiet fuel rest)
    · apply ErasesTo.skip lookAt_isQuiet
      intro _ _
      apply ErasesTo.skip reportPattern_isQuiet
      intro _ _
      exact ih.evalCases rest hc

/-- A constructor erases with its payload. -/
theorem constructor_erases (ih : Simulated now fuel more) (id : NodeId) (name : String)
    (args : List Expr) (hc : c.IsReal) :
  ErasesTo now (evalNode (fuel + 1) c scope (.constructor id name args))
    (Erased.eval (more + 1) (c.setting now) scope (.constructor id name args))
  := by
  unfold evalNode
  dsimp only
  split
  · rw [Erased.eval]
    exact ErasesTo.done
  · rw [Erased.eval]
    apply ErasesTo.bind (ih.eval _ hc)
    intro _
    exact ErasesTo.done
  · rw [Erased.eval]
    apply ErasesTo.bind (ih.eval _ hc)
    intro _
    exact ErasesTo.done
  · rw [Erased.eval]
    apply ErasesTo.bind (ih.eval _ hc)
    intro _
    exact ErasesTo.done
  · next hnothing hjust hok herror =>
    rw [Erased.eval]
    · split
      · exact ErasesTo.done
      · exact ErasesTo.done
    · exact hnothing
    · exact hjust
    · exact hok
    · exact herror

/-- A look at code that is not taken is erased. -/
theorem taken_erases (ih : Simulated now fuel more) {other taken : Expr} (hc : c.IsReal) :
  ErasesTo now (do lookAt fuel c scope other; eval fuel c scope taken)
    (Erased.eval more (c.setting now) scope taken)
  := by
  apply ErasesTo.skip lookAt_isQuiet
  intro _ _
  exact ih.eval taken hc

/-- Of a conditional the branch that is taken remains. -/
theorem conditional_erases (ih : Simulated now fuel more) (id : NodeId)
    (condition thenCase elseCase : Expr) (hc : c.IsReal) :
  ErasesTo now (evalNode (fuel + 1) c scope (.conditional id condition thenCase elseCase))
    (Erased.eval (more + 1) (c.setting now) scope
      (.conditional id condition thenCase elseCase))
  := by
  rw [evalNode, Erased.eval]
  apply ErasesTo.bind (ih.eval condition hc)
  intro condition
  have helse : ErasesTo now
      (do lookAt fuel c scope thenCase; eval fuel c scope elseCase)
      (Erased.eval more (c.setting now) scope elseCase) := taken_erases ih hc
  have hthen : ErasesTo now
      (do
        let value ← eval fuel c scope thenCase
        lookAt fuel c scope elseCase
        pure value)
      (Erased.eval more (c.setting now) scope thenCase) := by
    rw [← Effect.bind_pure (Erased.eval _ _ _ _)]
    apply ErasesTo.bind (ih.eval thenCase hc)
    intro value
    apply ErasesTo.skip lookAt_isQuiet
    intro _ _
    exact ErasesTo.done
  have hneither (value : Value) : ErasesTo now
      (do lookAt fuel c scope thenCase; lookAt fuel c scope elseCase; pure value)
      (pure value) := by
    apply ErasesTo.skip lookAt_isQuiet
    intro _ _
    apply ErasesTo.skip lookAt_isQuiet
    intro _ _
    exact ErasesTo.done
  cases condition with
  | bool b =>
    cases b with
    | false => exact helse
    | true => exact hthen
  | null => exact helse
  | incomplete | failure | errorRail => exact hneither _
  | _ => exact hthen

/-- Of a feature flag the code that is taken remains. -/
theorem featureFlag_erases (ih : Simulated now fuel more) (id : NodeId)
    (condition oldCode newCode : Expr) (hc : c.IsReal) :
  ErasesTo now (evalNode (fuel + 1) c scope (.featureFlag id condition oldCode newCode))
    (Erased.eval (more + 1) (c.setting now) scope
      (.featureFlag id condition oldCode newCode))
  := by
  rw [evalNode, Erased.eval]
  apply ErasesTo.bind (ErasesTo.caught (ih.eval condition hc))
  intro condition
  have hnew : ErasesTo now
      (do lookAt fuel c scope oldCode; eval fuel c scope newCode)
      (Erased.eval more (c.setting now) scope newCode) := taken_erases ih hc
  have hold : ErasesTo now
      (do lookAt fuel c scope newCode; eval fuel c scope oldCode)
      (Erased.eval more (c.setting now) scope oldCode) := taken_erases ih hc
  rcases condition with reason | value
  · exact hold
  · cases value with
    | bool b =>
      cases b with
      | false => exact hold
      | true => exact hnew
    | _ => exact hold

/-- The evaluation of a node for real erases, by cases on the node. -/
theorem evalNode_erases (ih : Simulated now fuel more) (e : Expr) (hc : c.IsReal) :
  ErasesTo now (evalNode (fuel + 1) c scope e)
    (Erased.eval (more + 1) (c.setting now) scope e)
  := by
  cases e with
  | blank | integer | float | bool | null | string | functionValue =>
    rw [evalNode, Erased.eval]
    exact ErasesTo.done
  | character id text =>
    rw [evalNode, Erased.eval]
    cases Value.ofCharacter text with
    | ok value => exact ErasesTo.done
    | error error => exact ErasesTo.done
  | letIn id name value body =>
    rw [evalNode, Erased.eval]
    apply ErasesTo.bind (ih.eval value hc)
    intro value
    split
    · exact ErasesTo.done
    · exact ih.eval body hc
  | list id items =>
    rw [evalNode, Erased.eval]
    apply ErasesTo.bind (ih.evalItems items hc)
    rintro (rail | values)
    · exact ErasesTo.done
    · exact ErasesTo.done
  | record id fields =>
    rw [evalNode, Erased.eval]
    apply ErasesTo.bind (ih.evalFields fields hc)
    intro pairs
    exact ErasesTo.done
  | «variable» id name =>
    rw [evalNode, Erased.eval]
    cases Fields.get? name scope with
    | some value => exact ErasesTo.done
    | none =>
      rw [hc.1]
      exact ErasesTo.done
  | fieldAccess id object field =>
    rw [evalNode, Erased.eval]
    apply ErasesTo.bind (ih.eval object hc)
    intro value
    cases value <;> exact ErasesTo.done
  | lambda id parameters body =>
    rw [evalNode, Erased.eval, if_neg (by rw [hc.1]; decide)]
    exact ErasesTo.done
  | conditional id condition thenCase elseCase =>
    exact conditional_erases ih id condition thenCase elseCase hc
  | featureFlag id condition oldCode newCode =>
    exact featureFlag_erases ih id condition oldCode newCode hc
  | constructor id name args => exact constructor_erases ih id name args hc
  | matchCases id scrutinee cases =>
    rw [evalNode, Erased.eval]
    apply ErasesTo.bind (ih.eval scrutinee hc)
    intro value
    apply ErasesTo.bind (ih.evalCases cases hc)
    intro chosen
    cases chosen with
    | some result => exact ErasesTo.done
    | none =>
      dsimp only
      split
      · exact ErasesTo.done
      · exact ErasesTo.done
  | apply id callee args position railUse =>
    rw [evalNode, Erased.eval]
    apply ErasesTo.bind (ih.eval callee hc)
    intro callee
    apply ErasesTo.bind (ih.evalArgs args hc)
    intro values
    rw [← Effect.bind_pure (Erased.applyValue _ _ _ _ _ _ _)]
    apply ErasesTo.bind (ih.applyValue hc)
    intro result
    cases position with
    | inPipe pipe =>
      apply ErasesTo.skip Run.report_isQuiet
      intro _ _
      exact ErasesTo.done
    | notInPipe => exact ErasesTo.done

/-! ### Calls -/

/-- The application of a value for real erases. -/
theorem applyValue_erases (ih : Simulated now fuel more) {id : NodeId} {callee : Value}
    {args : List Value} {position : PipePosition} {railUse : RailUse}
    (hc : c.IsReal) :
  ErasesTo now (applyValue (fuel + 1) c id callee args position railUse)
    (Erased.applyValue (more + 1) (c.setting now) id callee args position railUse)
  := by
  cases callee with
  | named | lambda => exact ih.applyCallable hc
  | incomplete =>
    cases position with
    | inPipe pipe => exact ErasesTo.done
    | notInPipe => exact ErasesTo.done
  | _ => exact ErasesTo.done

/-- The application of a function value for real erases. -/
theorem applyCallable_erases (ih : Simulated now fuel more) {id : NodeId} {f : Callable}
    {args : List Value} {position : PipePosition} {railUse : RailUse}
    (hc : c.IsReal) :
  ErasesTo now (applyCallable (fuel + 1) c id f args position railUse)
    (Erased.applyCallable (more + 1) (c.setting now) id f args position railUse)
  := by
  cases f with
  | named name => exact ih.call hc
  | lambda parameters captured body =>
    rw [applyCallable, Erased.applyCallable]
    cases args.find? fun value => value.isIncomplete || value.isErrorRail with
    | some value => exact ErasesTo.done
    | none =>
      dsimp only
      split
      · exact ErasesTo.done
      · exact ih.eval body hc

/-- A call by name for real erases. -/
theorem call_erases (ih : Simulated now fuel more) {name : FunctionName} {id : NodeId}
    {args : List Value} {position : PipePosition} {railUse : RailUse}
    (hc : c.IsReal) :
  ErasesTo now (call (fuel + 1) c name id args position railUse)
    (Erased.call (more + 1) (c.setting now) name id args position railUse)
  := by
  rw [call, Erased.call]
  cases args.find? Value.isErrorRail with
  | some value => exact ErasesTo.done
  | none =>
    have hregistry : (c.setting now).registry = c.registry := rfl
    rw [hregistry]
    cases hf : Assoc.get? name c.registry with
    | none =>
      rw [hc.1]
      exact ErasesTo.done
    | some f =>
      dsimp only
      split
      · exact ErasesTo.done
      · cases args.find? fun value => value.isIncomplete || value.isFailure with
        | some value =>
          cases position with
          | inPipe pipe => cases value <;> exact ErasesTo.done
          | notInPipe => exact ErasesTo.done
        | none =>
          apply ErasesTo.bind (ih.carryOut hc hf)
          intro result
          cases railUse with
          | rail => exact ErasesTo.done
          | noRail => exact ErasesTo.done

/-- Carrying out a function for real erases: its arguments and its result are checked alike. -/
theorem carryOut_erases (ih : Simulated now fuel more) {name : FunctionName} {f : Function}
    {id : NodeId} {args : List Value} (hc : c.IsReal)
    (hf : Assoc.get? name c.registry = some f) :
  ErasesTo now (carryOut (fuel + 1) c f id args)
    (Erased.carryOut (more + 1) (c.setting now) f id args)
  := by
  rw [carryOut, Erased.carryOut]
  cases himplementation : f.implementation with
  | builtin b =>
    apply ErasesTo.bind (ih.carryOutBuiltin (c := c.inCall f.name id) hc hf himplementation)
    intro result
    exact ErasesTo.done
  | written origin toplevel body =>
    dsimp only
    rw [if_neg (by rw [hc.1]; simp)]
    have htypes : (c.setting now).types = c.types := rfl
    rw [htypes]
    cases Typing.checkCall c.types f.parameterTypes args with
    | cons error errors => exact ErasesTo.done
    | nil =>
      apply ErasesTo.bind (ih.carryOutBody (c := c.inCall f.name id) hc)
      intro result
      exact ErasesTo.done

/-- Carrying out a body for real erases: no recorded result is used. -/
theorem carryOutBody_erases (ih : Simulated now fuel more) {f : Function} {toplevel : ToplevelId}
    {body : Expr} {site : CallSite} {args : List Value} (hc : c.IsReal) :
  ErasesTo now (carryOutBody (fuel + 1) c f toplevel body site args)
    (Erased.carryOutBody (more + 1) (c.setting now) f toplevel body args)
  := by
  rw [carryOutBody, Erased.carryOutBody]
  apply ErasesTo.skip Run.enter_isQuiet
  intro _ _
  rw [hc.1]
  apply ErasesTo.bind (ih.eval (c := c.inToplevel toplevel) body hc)
  intro value
  apply ErasesTo.skip Run.record_isQuiet
  intro _ _
  exact ErasesTo.done

/-- Carrying out a built-in for real erases: no recorded result is used. -/
theorem carryOutBuiltin_erases (ih : Simulated now fuel more) {name : FunctionName}
    {f : Function} {b : Builtin} {site : CallSite} {args : List Value}
    (hc : c.IsReal) (hf : Assoc.get? name c.registry = some f)
    (hb : f.implementation = .builtin b) :
  ErasesTo now (carryOutBuiltin (fuel + 1) c f b site args)
    (Erased.carryOutBuiltin (more + 1) (c.setting now) f b site.caller args)
  := by
  rw [carryOutBuiltin, Erased.carryOutBuiltin, hc.1]
  change ErasesTo now (if f.previewability = .impure ∧ ¬ true = true then _ else _) _
  rw [if_neg (by simp)]
  apply ErasesTo.invoke
  intro turn calls
  rw [hc.1, hc.2 name f b hf hb now turn 0 calls 0 args]
  apply ErasesTo.bind (ErasesTo.caught (ih.runSteps _ hc))
  intro outcome
  split
  · apply ErasesTo.skip Run.record_isQuiet
    intro _ _
    exact ErasesTo.done
  · exact ErasesTo.done

/-- The steps of a built-in for real erase. -/
theorem runSteps_erases (ih : Simulated now fuel more) {caller : NodeId} (step : BuiltinStep)
    (hc : c.IsReal) :
  ErasesTo now (runSteps (fuel + 1) c caller step)
    (Erased.runSteps (more + 1) (c.setting now) caller step)
  := by
  cases step with
  | finish result => exact ErasesTo.done
  | fail reason => exact ErasesTo.fault
  | apply f args position railUse next =>
    rw [runSteps, Erased.runSteps]
    apply ErasesTo.bind (ih.applyCallable hc)
    intro value
    exact ih.runSteps _ hc

/-! ### Runs -/

/-- With at least as much fuel, the erased interpreter does what evaluation for real does. -/
theorem simulated {now : Timestamp} :
  ∀ {fuel more : Nat}, fuel ≤ more → Simulated now fuel more
  | 0, _, _ => by
    constructor <;> intros <;> exact ErasesTo.outOfFuel
  | fuel + 1, more + 1, hmore => by
    have ih : Simulated now fuel more := simulated (Nat.le_of_succ_le_succ hmore)
    have ih' : Simulated now fuel (more + 1) := simulated (Nat.le_of_succ_le hmore)
    exact {
      eval := eval_erases ih'
      evalNode := evalNode_erases ih
      evalArgs := evalArgs_erases ih
      evalItems := evalItems_erases ih
      evalFields := evalFields_erases ih
      evalCases := evalCases_erases ih
      applyValue := applyValue_erases ih
      applyCallable := applyCallable_erases ih
      call := call_erases ih
      carryOut := carryOut_erases ih
      carryOutBody := carryOutBody_erases ih
      carryOutBuiltin := carryOutBuiltin_erases ih
      runSteps := runSteps_erases ih }

/-- When a run for real ends with a value, erased evaluation has the same value, whatever
the store, and carries out the same impure built-ins with the same arguments. -/
theorem eval_erased {c : Context} (hmode : c.mode = .real)
    (hbuiltins : c.registry.IsFunctional (c.sharing .real)) {scope : Scope} {e : Expr} {w w' : World}
    (hstore : w.store.IsReliable) {fuel : Nat} {value : Value}
    (hrun : eval fuel c scope e w = (.done value, w')) :
  ∃ calls, w'.impureCalls = w.impureCalls ++ calls
    ∧ ∀ more, fuel ≤ more →
      Erased.eval more (c.setting w.now) scope e = ⟨.done value, calls⟩
  := by
  have h : ∀ more, fuel ≤ more →
      (Erased.eval more (c.setting w.now) scope e).outcome = .done value
        ∧ w'.impureCalls
          = w.impureCalls ++ (Erased.eval more (c.setting w.now) scope e).calls := by
    intro more hmore
    rcases (simulated hmore).eval e ⟨hmode, hbuiltins⟩ w ⟨rfl, hstore⟩ with
      hfuel | ⟨-, houtcome, hcalls⟩
    · rw [hrun] at hfuel
      cases hfuel
    · rw [hrun] at houtcome hcalls
      exact ⟨houtcome.symm, hcalls⟩
  obtain ⟨-, hcalls⟩ := h fuel (Nat.le_refl fuel)
  use (Erased.eval fuel (c.setting w.now) scope e).calls, hcalls
  intro more hmore
  obtain ⟨houtcome, hcalls'⟩ := h more hmore
  have hsame := List.append_cancel_left (hcalls'.symm.trans hcalls)
  rw [← houtcome, ← hsame]

/-- An impure built-in that takes a text. -/
def send : Function where
  name := .stdlib "Email" "send" 0
  parameters := [⟨"text", .str, ""⟩]
  returnType := .any
  description := "Sends an email"
  previewability := .impure
  deprecation := .current
  implementation := .builtin ⟨fun _ _ => .finish (.ok .null), false⟩

/-- Code that sends one text or another. -/
def sendEither : Expr :=
  .conditional 1 (.bool 2 true)
    (.apply 3 (.functionValue 4 send.name) [.string 5 "a"] .notInPipe .noRail)
    (.apply 6 (.functionValue 7 send.name) [.string 8 "b"] .notInPipe .noRail)

/-- Whether a run ends with null and has sent one text. -/
def sendsOnly (text : String) : Outcome Value × World → Bool
  | (.done .null, w) =>
    match w.impureCalls with
    | [(name, [.str sent])] => name == send.name && sent == text
    | _ => false
  | _ => false

theorem eq_of_sendsOnly {text : String} {ending : Outcome Value × World}
    (h : sendsOnly text ending = true) :
  ∃ w, ending = (.done .null, w) ∧ w.impureCalls = [(send.name, [.str text])]
  := by
  unfold sendsOnly at h
  split at h
  · next w =>
    split at h
    · next name sent hcalls =>
      obtain ⟨hname, hsent⟩ := (Bool.and_eq_true _ _).mp h
      rw [eq_of_beq hname, eq_of_beq hsent] at hcalls
      exact ⟨w, rfl, hcalls⟩
    · cases h
  · cases h

/-- The branch that is not taken sends nothing. -/
theorem eval_erased_sendEither :
  Erased.eval 20 ⟨0, Stdlib.registry.addAll [send], [], ⟨0, 0⟩, .nothing⟩ [] sendEither
    = ⟨.done .null, [(send.name, [.str "a"])]⟩
  := by
  have hbuiltins : (Stdlib.registry.addAll [send]).IsFunctional fun _ => .nothing := by
    apply Registry.isFunctional_addAll
    intro f hf b hb now sharing i j args
    rw [List.mem_singleton.mp hf] at hb
    cases hb
    rfl
  have hstore : (World.fresh ⟨0, 0⟩).store.IsReliable := fun _ => rfl
  let c : Context := .start .real 0 0 (Stdlib.registry.addAll [send]) []
  have hsends : sendsOnly "a" (eval 20 c [] sendEither (.fresh ⟨0, 0⟩)) = true := by
    decide +kernel
  obtain ⟨w, hrun, hsent⟩ := eq_of_sendsOnly hsends
  obtain ⟨calls, hcalls, herased⟩ := eval_erased rfl hbuiltins hstore hrun
  obtain rfl : calls = [(send.name, [.str "a"])] := hcalls.symm.trans hsent
  exact herased 20 (Nat.le_refl 20)

end Interpreter

end LiveExpr
