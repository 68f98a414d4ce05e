import LiveExpr.Proofs.Regime

/-!
# Spared results

A preview writes to the store, but never changes a result that is recorded for a function
written in the language: it records what it found, or what it did not find and what no call
inside of the call can have recorded since, because a preview does not enter a function that
is under way. What happens to the store is told by the events of a run. Main statement:
`eval_spares`.
-/

namespace LiveExpr

/-- Whether an event records a result under a key. -/
def Event.Records (event : Event) (site : CallSite) (hash : String) : Prop :=
  ∃ args value, event = .record site hash args value

namespace TraceStore

/-- The store after an event. -/
def afterEvent (store : TraceStore) : Event → TraceStore
  | .report executed id value => store.report executed id value
  | .enter toplevel => store.enter toplevel
  | .record site hash _ value => store.record site hash value
  | .load _ _ _ | .invoke _ _ => store

/-- The store after some events, the latest first. -/
def after (store : TraceStore) : List (Context × Event) → TraceStore
  | [] => store
  | entry :: earlier => (store.after earlier).afterEvent entry.2

variable {store : TraceStore} {site : CallSite} {hash : String}

/-- An event changes no result but the one that it records. -/
theorem load?_afterEvent {event : Event} (h : ¬ event.Records site hash) :
  (store.afterEvent event).load? site hash = store.load? site hash
  := by
  cases event with
  | report executed id value => exact load?_report
  | enter toplevel => exact load?_enter
  | load | invoke => rfl
  | record site' hash' args value =>
    rw [afterEvent, load?_record]
    split
    · next hsame =>
      obtain ⟨-, rfl, rfl⟩ := hsame
      exact absurd ⟨args, value, rfl⟩ h
    · rfl

theorem keepsResults_after {events : List (Context × Event)} :
  (store.after events).keepsResults = store.keepsResults
  := by
  induction events with
  | nil => rfl
  | cons entry earlier ih =>
    rw [← ih, after]
    cases entry.2 with
    | report => exact keepsResults_report
    | enter => exact keepsResults_enter
    | load | invoke => rfl
    | record => exact keepsResults_record

/-- Whether among events no one in preview changes a result that is recorded for a function
written in the language. -/
def IsSpared (registry : Registry) (store : TraceStore) (events : List (Context × Event)) :
    Prop :=
  ∀ later c event earlier, events = later ++ (c, event) :: earlier → c.mode = .preview →
    ∀ site hash result, registry.IsWritten site.name →
      (store.after earlier).load? site hash = some result →
      (store.after ((c, event) :: earlier)).load? site hash = some result

variable {registry : Registry} {events : List (Context × Event)}

theorem IsSpared.nil :
  store.IsSpared registry []
  := by
  intro later c event earlier h
  cases later <;> cases h

theorem IsSpared.cons (h : store.IsSpared registry events) {c : Context} {event : Event}
    (hevent : c.mode = .preview → ∀ site hash result, registry.IsWritten site.name →
      (store.after events).load? site hash = some result →
      (store.after ((c, event) :: events)).load? site hash = some result) :
  store.IsSpared registry ((c, event) :: events)
  := by
  intro later c' event' earlier hsplit
  cases later with
  | nil =>
    cases hsplit
    exact hevent
  | cons entry later =>
    obtain ⟨-, hsplit⟩ := List.cons.inj hsplit
    exact h later c' event' earlier hsplit

/-- What is recorded under a key for real is still there after events of which those in
preview spare it and the others record nothing under the key. -/
theorem IsSpared.load? (h : store.IsSpared registry events)
    (hwritten : registry.IsWritten site.name) {later earlier : List (Context × Event)}
    {result : Value} (hevents : events = later ++ earlier)
    (hresult : (store.after earlier).load? site hash = some result)
    (hlater : ∀ entry ∈ later, entry.1.mode = .real → ¬ entry.2.Records site hash) :
  (store.after events).load? site hash = some result
  := by
  subst hevents
  induction later with
  | nil => exact hresult
  | cons entry later ih =>
    obtain ⟨c, event⟩ := entry
    obtain ⟨hentry, hlater⟩ := List.forall_mem_cons.mp hlater
    have hspared : store.IsSpared registry (later ++ earlier) :=
      fun later' c' event' earlier' hsplit =>
        h ((c, event) :: later') c' event' earlier' (congrArg _ hsplit)
    have hload := ih hlater hspared
    cases hmode : c.mode with
    | preview => exact h [] c event _ rfl hmode site hash result hwritten hload
    | real =>
      rw [← hload]
      exact load?_afterEvent (hentry hmode)

end TraceStore

namespace Interpreter

open Run (Keeps)

variable {registry : Registry} {c : Context} {fuel : Nat} {site : CallSite} {args : List Value}

/-! ### Calls of a function under way -/

/-- Whether a context is one of a preview inside of a call of a function. -/
def IsInside (registry : Registry) (name : FunctionName) (c : Context) : Prop :=
  c.registry = registry ∧ c.mode = .preview ∧ name ∈ c.stack.names

/-- Whether a world has the results of a store for the calls of a function. -/
def HasResultsOf (name : FunctionName) (store : TraceStore) (w : World) : Prop :=
  ∀ site hash, site.name = name → w.store.load? site hash = store.load? site hash

theorem record_elsewhere {name : FunctionName} {store : TraceStore} {value : Value}
    (hsite : site.name ≠ name) :
  Keeps (HasResultsOf name store) True (fun _ => True) (Run.record c site args value)
  := by
  apply Keeps.record
  intro w hash hw site' hash' hname
  rw [← hw site' hash' hname]
  dsimp only
  rw [TraceStore.load?_record, if_neg]
  rintro ⟨-, rfl, -⟩
  exact hsite hname

theorem enter_hasResultsOf {name : FunctionName} {store : TraceStore}
    {toplevel : ToplevelId} :
  Keeps (HasResultsOf name store) True (fun _ => True) (Run.enter c toplevel)
  := by
  intro w hw
  refine ⟨fun site hash hname => ?_, trivial⟩
  rw [← hw site hash hname]
  exact TraceStore.load?_enter

theorem load_hasResultsOf {name : FunctionName} {store : TraceStore} :
  Keeps (HasResultsOf name store) True (fun _ => True) (Run.load c site args)
  := Keeps.load trivial fun _ _ hw => ⟨hw, trivial⟩

/-- Inside of a call of a function, a preview records no result of that function. -/
theorem closedContexts_inside
    (hnamed : ∀ name f, Assoc.get? name registry = some f → f.name = name)
    {name : FunctionName} (hwritten : registry.IsWritten name) (store : TraceStore) :
  ClosedContexts (IsInside registry name)
    (fun c f site => IsInside registry name c ∧ site.name = f.name ∧ f.name ≠ name)
    (HasResultsOf name store)
  where
  lookAside hc := ⟨hc.1, rfl, hc.2.2⟩
  enters {c other f id} hc hf hguard := by
    obtain ⟨hregistry, hmode, hunder⟩ := hc
    refine ⟨⟨hregistry, hmode, List.mem_cons_of_mem _ hunder⟩, rfl, ?_⟩
    rintro rfl
    rw [hregistry] at hf
    obtain rfl := hnamed other f hf
    obtain ⟨g, hg, hwritten⟩ := hwritten
    obtain rfl := Option.some.inj (hf.symm.trans hg)
    exact CallStack.outerCall?_eq_none.mp (hguard hwritten hmode) hunder
  inside hentered := hentered.1
  inToplevel hentered := hentered.1
  report _ := by
    apply Keeps.report
    · intro w hw site hash hname
      rw [← hw site hash hname]
      exact TraceStore.load?_report
    · exact fun _ _ _ => trivial
  enter _ := enter_hasResultsOf
  load _ := load_hasResultsOf
  invoke _ w hw := ⟨hw, trivial⟩
  record hentered _ _ := record_elsewhere (by rw [hentered.2.1]; exact hentered.2.2)
  body hentered _ heval := by
    have hother := hentered.2.2
    rw [← hentered.2.1] at hother
    apply carryOutBody_keeps enter_hasResultsOf
    · exact load_hasResultsOf.mono (fun hfaults => hfaults) fun _ _ _ _ => trivial
    · exact fun _ _ => record_elsewhere hother
    · exact heval

/-! ### Events of a run -/

/-- Whether a world comes from another by events of which those in preview spare the
results of functions written in the language. -/
def SparesFrom (registry : Registry) (w₀ w : World) : Prop :=
  ∃ events, w.log = events ++ w₀.log ∧ w.store = w₀.store.after events
    ∧ w₀.store.IsSpared registry events

variable {w₀ : World}

theorem SparesFrom.refl (w : World) :
  SparesFrom registry w w
  := ⟨[], rfl, rfl, TraceStore.IsSpared.nil⟩

theorem SparesFrom.step {w w' : World} (h : SparesFrom registry w₀ w) {event : Event}
    (hlog : w'.log = (c, event) :: w.log) (hstore : w'.store = w.store.afterEvent event)
    (hspared : c.mode = .preview → ∀ site hash result, registry.IsWritten site.name →
      w.store.load? site hash = some result → w'.store.load? site hash = some result) :
  SparesFrom registry w₀ w'
  := by
  obtain ⟨events, hevents, hafter, hsparing⟩ := h
  refine ⟨(c, event) :: events, ?_, ?_, hsparing.cons ?_⟩
  · rw [hlog, hevents, List.cons_append]
  · rw [hstore, hafter, TraceStore.after]
  · rw [hafter] at hspared hstore
    rw [hstore] at hspared
    exact hspared

/-- An event that records no result spares them. -/
theorem SparesFrom.stepAside {w w' : World} (h : SparesFrom registry w₀ w) {event : Event}
    (hlog : w'.log = (c, event) :: w.log) (hstore : w'.store = w.store.afterEvent event)
    (hrecords : ∀ site hash, ¬ event.Records site hash) :
  SparesFrom registry w₀ w'
  := by
  apply h.step hlog hstore
  intro _ site hash result _ hresult
  rw [hstore, TraceStore.load?_afterEvent (hrecords site hash), hresult]

theorem SparesFrom.enter {w : World} (h : SparesFrom registry w₀ w) {toplevel : ToplevelId} :
  SparesFrom registry w₀ (Run.enter c toplevel w).2
  := h.stepAside rfl rfl (by rintro _ _ ⟨_, _, ⟨⟩⟩)

theorem SparesFrom.load {w : World} (h : SparesFrom registry w₀ w) {hash : String}
    {found : Option Value} :
  SparesFrom registry w₀ { w with log := (c, .load site hash found) :: w.log }
  := h.stepAside rfl rfl (by rintro _ _ ⟨_, _, ⟨⟩⟩)

/-- A result is recorded for real, or for a built-in, or where there is none or the same. -/
theorem SparesFrom.record {w : World} (h : SparesFrom registry w₀ w) {hash : String}
    {value : Value}
    (hspared : c.mode = .preview → registry.IsWritten site.name → ∀ result,
      w.store.load? site hash = some result → result = value) :
  SparesFrom registry w₀ { w with
    store := w.store.record site hash value
    log := (c, .record site hash args value) :: w.log }
  := by
  apply h.step rfl rfl
  intro hmode site' hash' result hwritten hresult
  dsimp only
  rw [TraceStore.load?_record]
  split
  · next hsame =>
    obtain ⟨-, rfl, rfl⟩ := hsame
    rw [hspared hmode hwritten result hresult]
  · exact hresult

theorem enter_spares {toplevel : ToplevelId} :
  Keeps (SparesFrom registry w₀) True (fun _ => True) (Run.enter c toplevel)
  := fun _ hw => ⟨hw.enter, trivial⟩

theorem load_spares :
  Keeps (SparesFrom registry w₀) True (fun _ => True) (Run.load c site args)
  := Keeps.load trivial fun _ _ hw => ⟨hw.load, trivial⟩

theorem record_spares {value : Value}
    (hsafe : c.mode = .preview → ¬ registry.IsWritten site.name) :
  Keeps (SparesFrom registry w₀) True (fun _ => True) (Run.record c site args value)
  := by
  apply Keeps.record
  intro w hash hw
  apply hw.record
  exact fun hmode hwritten => absurd hwritten (hsafe hmode)

/-! ### Runs -/

/-- Whether a context is inside of a call of a function from a site. -/
def IsEntered (registry : Registry) (c : Context) (f : Function) (site : CallSite) : Prop :=
  c.registry = registry ∧ site.name = f.name ∧ Assoc.get? f.name registry = some f
    ∧ f.name ∈ c.stack.names

/-- A preview that finds no result of a call records what the body gives: there still is
none, because the body records no result of its own function. -/
theorem body_spares
    (hnamed : ∀ name f, Assoc.get? name registry = some f → f.name = name) {f : Function}
    {origin : Origin} {toplevel : ToplevelId} {body : Expr} {scope : Scope}
    (hentered : IsEntered registry c f site) (hmode : c.mode = .preview)
    (hbody : f.implementation = .written origin toplevel body)
    (heval : Keeps (SparesFrom registry w₀) True (fun _ => True)
      (eval fuel (c.inToplevel toplevel) scope body)) {hash : String}
    (hhash : c.argumentHash? args = some hash) {w : World}
    (hw : SparesFrom registry w₀ w) (hnone : w.store.load? site hash = none) :
  SparesFrom registry w₀ ((do
    let value ← eval fuel (c.inToplevel toplevel) scope body
    Run.record c site args value.offRail
    pure value.offRail : Run Value) w).2
  := by
  obtain ⟨hregistry, hsite, hf, hunder⟩ := hentered
  have hwritten : registry.IsWritten f.name := ⟨f, hf, by rw [Function.isBuiltin, hbody]⟩
  have hinside : IsInside registry f.name (c.inToplevel toplevel) := ⟨hregistry, hmode, hunder⟩
  have hresults : Keeps (HasResultsOf f.name w.store) True (fun _ => True)
      (eval fuel (c.inToplevel toplevel) scope body) :=
    (closedContexts_inside hnamed hwritten w.store).eval hinside body
  apply (heval.and hresults).thenFrom (fun _ hw => hw.1) _ ⟨hw, fun _ _ _ => rfl⟩
  intro value w' _ hw'
  have hnone' : w'.store.load? site hash = none := by rw [hw'.2 site hash hsite, hnone]
  have hrecord : Run.record c site args value.offRail w' = (.done (), { w' with
      store := w'.store.record site hash value.offRail
      log := (c, .record site hash args value.offRail) :: w'.log }) := by
    rw [Run.record, hhash]
  rw [Run.bind_of_done hrecord]
  apply hw'.1.record
  intro _ _ result hresult
  rw [hnone'] at hresult
  cases hresult

theorem carryOutBody_spares
    (hnamed : ∀ name f, Assoc.get? name registry = some f → f.name = name) {f : Function}
    {origin : Origin} {toplevel : ToplevelId} {body : Expr}
    (hentered : IsEntered registry c f site)
    (hbody : f.implementation = .written origin toplevel body)
    (heval : Keeps (SparesFrom registry w₀) True (fun _ => True) (eval fuel (c.inToplevel toplevel)
      (Fields.ofPairs ((f.parameters.map Parameter.name).zip args)) body)) :
  Keeps (SparesFrom registry w₀) True (fun _ => True)
    (carryOutBody (fuel + 1) c f toplevel body site args)
  := by
  have hload : Keeps (SparesFrom registry w₀) True
      (fun found => ∀ value, found = some value → True) (Run.load c site args) :=
    load_spares.mono (fun hfaults => hfaults) fun _ _ _ _ => trivial
  cases hmode : c.mode with
  | real =>
    have hreal : c.mode = .preview → ¬ registry.IsWritten site.name := by
      rw [hmode]
      exact nofun
    exact carryOutBody_keeps enter_spares hload (fun _ _ => record_spares hreal) heval
  | preview =>
    cases hhash : c.argumentHash? args with
    | none =>
      have hrecord : ∀ value, Run.record c site args value = pure () := by
        intro value
        rw [Run.record, hhash]
        rfl
      refine carryOutBody_keeps enter_spares hload (fun value _ => ?_) heval
      rw [hrecord]
      exact Keeps.done trivial
    | some hash =>
      intro w hw
      use ?_, Outcome.meets_trivial _
      have henter : Run.enter c toplevel w = (.done (), (Run.enter c toplevel w).2) := rfl
      have hw : SparesFrom registry w₀ (Run.enter c toplevel w).2 := hw.enter
      rw [carryOutBody, Run.bind_of_done henter]
      generalize (Run.enter c toplevel w).2 = w at hw
      have hload : Run.loadIf c.mode.replaysResults c site args w
          = (.done (w.store.load? site hash),
            { w with log := (c, .load site hash (w.store.load? site hash)) :: w.log }) := by
        have hwanted : Run.loadIf c.mode.replaysResults c site args = Run.load c site args := by
          rw [hmode]
          rfl
        rw [hwanted, Run.load, hhash]
      rw [Run.bind_of_done hload]
      cases hfound : w.store.load? site hash with
      | none => exact body_spares hnamed hentered hmode hbody heval hhash hw.load hfound
      | some result =>
        have hrecord : Run.record c site args result
            { w with log := (c, .load site hash (some result)) :: w.log }
          = (.done (), { w with
              store := w.store.record site hash result
              log := (c, .record site hash args result)
                :: (c, .load site hash (some result)) :: w.log }) := by
          rw [Run.record, hhash]
        dsimp only
        rw [Run.bind_of_done hrecord]
        have hw : SparesFrom registry w₀
            { w with log := (c, .load site hash (some result)) :: w.log } := hw.load
        apply hw.record
        intro _ _ result' hresult'
        exact Option.some.inj (hresult'.symm.trans hfound)

theorem closedContexts_spares
    (hnamed : ∀ name f, Assoc.get? name registry = some f → f.name = name) (w₀ : World) :
  ClosedContexts (fun c => c.registry = registry) (IsEntered registry)
    (SparesFrom registry w₀)
  where
  lookAside hc := hc
  enters {c name f id} hc hf _ := by
    rw [hc] at hf
    obtain rfl := hnamed name f hf
    exact ⟨hc, rfl, hf, List.mem_cons_self⟩
  inside hentered := hentered.1
  inToplevel hentered := hentered.1
  report _ := by
    apply Keeps.report
    · exact fun w hw => hw.stepAside rfl rfl (by rintro _ _ ⟨_, _, ⟨⟩⟩)
    · exact fun _ _ _ => trivial
  enter _ := enter_spares
  load _ := load_spares
  invoke _ w hw := ⟨hw.stepAside rfl rfl (by rintro _ _ ⟨_, _, ⟨⟩⟩), trivial⟩
  record hentered hb _ := by
    obtain ⟨-, hsite, hf, -⟩ := hentered
    apply record_spares
    rw [hsite]
    exact fun _ => Registry.not_isWritten_of_builtin hf hb
  body := carryOutBody_spares hnamed

/-- No event of a run that takes place in preview changes a result that is recorded for a
function written in the language. So at the end a key of such a function has the result
that was last recorded under it for real, if the store keeps results. -/
theorem eval_spares (fs : List Function) (mode : Mode) (version : UInt32)
    (toplevel : ToplevelId) (types : TypeTable) (fuel : Nat) (scope : Scope) (e : Expr)
    (w : World) :
  let registry := Registry.addAll [] fs
  let w' := (eval fuel (.start mode version toplevel registry types) scope e w).2
  ∃ events, w'.log = events ++ w.log ∧ w'.store = w.store.after events
    ∧ (∀ later c event earlier, events = later ++ (c, event) :: earlier → c.mode = .preview →
      ∀ site hash result, registry.IsWritten site.name →
        (w.store.after earlier).load? site hash = some result →
        (w.store.after ((c, event) :: earlier)).load? site hash = some result)
    ∧ (w.store.keepsResults = true → ∀ later c site hash args result earlier,
      events = later ++ (c, .record site hash args result) :: earlier → c.mode = .real →
      registry.IsWritten site.name →
      (∀ entry ∈ later, entry.1.mode = .real → ¬ entry.2.Records site hash) →
      w'.store.load? site hash = some result)
  := by
  intro registry w'
  have hnamed : ∀ name f, Assoc.get? name registry = some f → f.name = name := by
    intro name f hf
    exact Registry.name_of_get?_addAll (by rintro _ _ ⟨⟩) hf
  have hkeeps : Keeps (SparesFrom registry w) True (fun _ => True)
      (eval fuel (.start mode version toplevel registry types) scope e) :=
    (closedContexts_spares hnamed w).eval rfl e
  obtain ⟨events, hlog, hstore, hspared⟩ := (hkeeps w (.refl w)).1
  refine ⟨events, hlog, hstore, hspared, ?_⟩
  intro hkept later c site hash args result earlier hevents _ hwritten hlater
  have hrecorded : (w.store.after ((c, .record site hash args result) :: earlier)).load? site hash
      = some result := by
    have hkeeping : (w.store.after earlier).keepsResults = true := by
      rw [TraceStore.keepsResults_after, hkept]
    rw [TraceStore.after, TraceStore.afterEvent, TraceStore.load?_record,
      if_pos ⟨hkeeping, rfl, rfl⟩]
  rw [hstore]
  exact hspared.load? hwritten hevents hrecorded hlater

/-- A function of a program, without parameters. -/
def constant (name : String) (toplevel : ToplevelId) (body : Expr) : Function where
  name := .user name
  parameters := []
  returnType := .any
  description := ""
  previewability := .pure
  deprecation := .current
  implementation := .written .user toplevel body

/-- A function that calls another. -/
def askAnswer : List Function :=
  [ constant "answer" 20 (.integer 21 42),
    constant "ask" 30 (.apply 31 (.functionValue 32 (.user "answer")) [] .notInPipe .noRail) ]

/-- A call for real, and one that is looked at. -/
def asking : Expr :=
  .conditional 1 (.apply 2 (.functionValue 3 (.user "ask")) [] .notInPipe .noRail) (.null 4)
    (.apply 5 (.functionValue 6 (.user "ask")) [] .notInPipe .noRail)

/-- The result that was recorded for real is found and recorded again in preview. -/
example :
  let run := eval 40 (.start .real 1 0 (Registry.addAll [] askAnswer) []) [] asking
  let recorder : Context × Event → Option (Mode × NodeId)
    | (c, .record site _ _ _) => some (c.mode, site.caller)
    | _ => none
  (run (.fresh ⟨0, 0⟩)).2.log.filterMap recorder
    = [(.preview, 5), (.preview, 31), (.real, 2), (.real, 31)]
  := by decide +kernel

end Interpreter

end LiveExpr
