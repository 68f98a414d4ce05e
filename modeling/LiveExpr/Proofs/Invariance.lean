import LiveExpr.Proofs.Regime

/-!
# Invariants of evaluation

What evaluation keeps, whatever the program and whichever code it runs: if the values of a
kind are closed under what the language does with values, and reporting, recording and
carrying out built-ins keep an invariant of the world, then evaluation keeps the invariant
and stays among the values of the kind. Main statement: `Stable.kept`.
-/

namespace LiveExpr

/-- Whether the variables that a function value captured are bound to values of a
kind. -/
def Callable.Within (bound : Value → Prop) : Callable → Prop
  | .named _ => True
  | .lambda _ scope _ => scope.All bound

/-- Whether a built-in stays among values of a kind, as long as what it applies does. -/
def BuiltinStep.Within (kind bound : Value → Prop) : BuiltinStep → Prop
  | .finish (.ok value) | .finish (.error (.fake value)) => kind value
  | .finish (.error _) | .fail _ => True
  | .apply f args _ _ next =>
    f.Within bound ∧ (∀ arg ∈ args, kind arg) ∧
      ∀ value, kind value → (next value).Within kind bound

theorem BuiltinStep.within_trivial (step : BuiltinStep) :
  step.Within (fun _ => True) (fun _ => True)
  := by
  induction step with
  | finish result => rcases result with (_ | _ | _) | _ <;> trivial
  | fail reason => trivial
  | apply f args position railUse next ih =>
    refine ⟨?_, fun _ _ => trivial, fun value _ => ih value⟩
    cases f with
    | named name => trivial
    | lambda parameters scope body => exact fun _ _ => trivial

namespace Interpreter

/-- The values of a kind, and those that variables are bound to, are closed under what
the language does with values. -/
structure ClosedKind (kind bound : Value → Prop) : Prop where
  atom : ∀ {value}, value.isAtom = true → kind value
  ofItems : ∀ {items}, (∀ item ∈ items, kind item) → kind (.ofItems items)
  ofPairs : ∀ {pairs}, (∀ pair ∈ pairs, kind pair.2) → kind (.ofPairs pairs)
  field : ∀ {fields name value}, kind (.record fields) →
    Fields.get? name fields = some value → kind value
  just : ∀ {value}, kind value → kind (wrap .just value)
  ok : ∀ {value}, kind value → kind (wrap .ok value)
  error : ∀ {value}, kind value → kind (wrap .error value)
  payload : ∀ {name value inner}, kind value →
    Matching.payload? name value = some inner → kind inner
  toRail : ∀ {source value}, kind value → kind (toRail source value)
  offRail : ∀ {value}, kind value → kind value.offRail
  lambda : ∀ {parameters scope body}, Fields.All bound scope →
    kind (.lambda parameters scope body)
  captured : ∀ {parameters scope body}, kind (.lambda parameters scope body) →
    Fields.All bound scope
  bind : ∀ {value}, kind value → value.isErrorRail = false → bound value
  look : ∀ {value}, bound value → kind value

/-- All values together are closed under what the language does with values. -/
theorem ClosedKind.trivial :
  ClosedKind (fun _ => True) (fun _ => True)
  := by
  constructor <;> intros <;> first | exact True.intro | exact fun _ _ => True.intro

/-- An invariant of the world that evaluation in some contexts keeps, among values of a
kind. Faults other than those of built-ins only occur if they are allowed. -/
structure Stable (context : Context → Prop) (kind bound : Value → Prop)
    (inv : World → Prop) (allowed : Prop) : Prop extends ClosedKind kind bound where
  lookAside : ∀ {c}, context c → context c.lookAside
  inCall : ∀ {c name id}, context c → context (c.inCall name id)
  inToplevel : ∀ {c name f origin toplevel body}, context c →
    Assoc.get? name c.registry = some f →
    f.implementation = .written origin toplevel body → context (c.inToplevel toplevel)
  builtin : ∀ {c name f b known args}, context c → Assoc.get? name c.registry = some f →
    f.implementation = .builtin b →
    (∀ arg ∈ args, kind arg) → (∀ arg ∈ args, arg.isFake = false) →
    (b.run known args).Within kind bound
  report : ∀ {c executed id value}, context c → kind value →
    Run.Keeps inv allowed (fun _ => True) (Run.report c executed id value)
  enter : ∀ {c toplevel}, context c →
    Run.Keeps inv allowed (fun _ => True) (Run.enter c toplevel)
  load : ∀ {c site args}, context c →
    Run.Keeps inv allowed (fun found => ∀ value, found = some value → kind value)
      (Run.load c site args)
  record : ∀ {c site args value}, context c → site.toplevel = c.toplevel → kind value →
    Run.Keeps inv allowed (fun _ => True) (Run.record c site args value)
  invoke : ∀ {c f args}, context c →
    (f.previewability = .impure → c.mode.allowsImpureCalls = true) →
    Run.Keeps inv allowed (fun _ => True) (Run.invoke c f args)

variable {context : Context → Prop} {kind bound : Value → Prop} {inv : World → Prop}
  {allowed : Prop}

/-- What holds of evaluation with some fuel under an invariant. -/
structure Kept (context : Context → Prop) (kind bound : Value → Prop)
    (inv : World → Prop) (allowed : Prop) (fuel : Nat) : Prop where
  eval : ∀ {c scope} e, context c → Fields.All bound scope →
    Run.Keeps inv allowed kind (eval fuel c scope e)
  lookAt : ∀ {c scope} e, context c → Fields.All bound scope →
    Run.Keeps inv allowed (fun _ => True) (lookAt fuel c scope e)
  evalNode : ∀ {c scope} e, context c → Fields.All bound scope →
    Run.Keeps inv allowed kind (evalNode fuel c scope e)
  evalArgs : ∀ {c scope} es, context c → Fields.All bound scope →
    Run.Keeps inv allowed (fun values => ∀ value ∈ values, kind value)
      (evalArgs fuel c scope es)
  evalItems : ∀ {c scope} es, context c → Fields.All bound scope →
    Run.Keeps inv allowed
      (fun result => (∀ value, result = .error value → kind value) ∧
        ∀ values, result = .ok values → ∀ value ∈ values, kind value)
      (evalItems fuel c scope es)
  evalFields : ∀ {c scope} es, context c → Fields.All bound scope →
    Run.Keeps inv allowed (fun pairs => ∀ pair ∈ pairs, kind pair.2)
      (evalFields fuel c scope es)
  evalCases : ∀ {c scope value chosen} cases, context c → Fields.All bound scope →
    kind value → (∀ result, chosen = some result → kind result) →
    Run.Keeps inv allowed (fun chosen => ∀ result, chosen = some result → kind result)
      (evalCases fuel c scope value cases chosen)
  applyValue : ∀ {c id callee args position railUse}, context c → kind callee →
    (∀ arg ∈ args, kind arg) →
    Run.Keeps inv allowed kind (applyValue fuel c id callee args position railUse)
  applyCallable : ∀ {c id f args position railUse}, context c → f.Within bound →
    (∀ arg ∈ args, kind arg) →
    Run.Keeps inv allowed kind (applyCallable fuel c id f args position railUse)
  call : ∀ {c name id args position railUse}, context c → (∀ arg ∈ args, kind arg) →
    Run.Keeps inv allowed kind (call fuel c name id args position railUse)
  carryOut : ∀ {c name f id args}, context c → Assoc.get? name c.registry = some f →
    (∀ arg ∈ args, kind arg) → (∀ arg ∈ args, arg.isFake = false) →
    Run.Keeps inv allowed kind (carryOut fuel c f id args)
  carryOutBody : ∀ {c name f origin toplevel body site args}, context c →
    Assoc.get? name c.registry = some f →
    f.implementation = .written origin toplevel body → site.toplevel = c.toplevel →
    (∀ arg ∈ args, kind arg) → (∀ arg ∈ args, arg.isFake = false) →
    Run.Keeps inv allowed kind (carryOutBody fuel c f toplevel body site args)
  carryOutBuiltin : ∀ {c name f b site args}, context c →
    Assoc.get? name c.registry = some f → f.implementation = .builtin b →
    site.toplevel = c.toplevel →
    (∀ arg ∈ args, kind arg) → (∀ arg ∈ args, arg.isFake = false) →
    Run.Keeps inv allowed kind (carryOutBuiltin fuel c f b site args)
  runSteps : ∀ {c caller} step, context c → BuiltinStep.Within kind bound step →
    Run.Keeps inv True
      (fun result => ∀ value, result = .ok value ∨ result = .error (.fake value) →
        kind value)
      (runSteps fuel c caller step)

/-! ### Runs -/

theorem ClosedKind.value (h : ClosedKind kind bound) {f : Callable} (hf : f.Within bound) :
  kind f.value
  := by
  cases f with
  | named name => exact h.atom rfl
  | lambda parameters scope body => exact h.lambda hf

theorem ClosedKind.stays (h : ClosedKind kind bound) {step : BuiltinStep}
    (hstep : step.Within kind bound) :
  step.Stays kind
  := by
  induction step with
  | finish result => rcases result with (_ | _ | _) | _ <;> exact hstep
  | fail reason => trivial
  | apply f args position railUse next ih =>
    obtain ⟨hf, hargs, hnext⟩ := hstep
    exact ⟨h.value hf, hargs, fun value hv => ih value (hnext value hv)⟩

theorem ClosedKind.within (h : ClosedKind kind bound) {step : BuiltinStep}
    (hstep : step.Stays kind) :
  step.Within kind bound
  := by
  induction step with
  | finish result => rcases result with (_ | _ | _) | _ <;> exact hstep
  | fail reason => trivial
  | apply f args position railUse next ih =>
    obtain ⟨hf, hargs, hnext⟩ := hstep
    refine ⟨?_, hargs, fun value hv => ih value (hnext value hv)⟩
    cases f with
    | named name => trivial
    | lambda parameters scope body => exact h.captured hf

/-- The regime of an invariant, in which any code may be run. -/
def invariance (context : Context → Prop) (kind bound : Value → Prop) (inv : World → Prop)
    (allowed : Prop) : Regime where
  context
  entered c f site := context c ∧ site.toplevel = c.toplevel
    ∧ ∃ name, Assoc.get? name c.registry = some f
  node _ _ := True
  place _ _ := True
  kind
  bound
  world := inv
  faults := allowed

variable {fuel : Nat}

theorem Stable.isLawful (h : Stable context kind bound inv allowed) :
  (invariance context kind bound inv allowed).IsLawful
  where
  plain hatom _ _ := h.atom hatom
  incomplete _ := h.atom rfl
  failure _ := h.atom rfl
  ofItems := h.ofItems
  ofPairs := h.ofPairs
  field := h.field
  just := h.just
  ok := h.ok
  error := h.error
  payload := h.payload
  toRail _ := h.toRail
  offRail := h.offRail
  bind := h.bind
  look := h.look
  id _ := trivial
  pattern _ _ _ _ _ := trivial
  parameter _ _ _ := trivial
  named _ := h.atom rfl
  lambda _ := h.lambda
  captured := h.captured
  applied _ _ _ _ := trivial
  lookAside := h.lookAside
  enters hc _ hf _ := ⟨h.inCall hc, rfl, _, hf⟩
  inside hentered := hentered.1
  inToplevel hentered hbody := by
    obtain ⟨hc, -, name, hf⟩ := hentered
    exact ⟨h.inToplevel hc hf hbody, fun _ _ => trivial⟩
  builtin hentered hb hargs hreal := by
    obtain ⟨hc, -, name, hf⟩ := hentered
    exact h.stays (h.builtin hc hf hb hargs hreal)
  report hc _ := h.report hc
  enter hentered := h.enter hentered.1
  load := h.load
  invoke hentered := h.invoke hentered.1
  record hentered _ _ := h.record hentered.1 hentered.2.1
  body hentered _ _ heval := by
    obtain ⟨hc, hsite, -⟩ := hentered
    apply carryOutBody_keeps (h.enter hc) (h.load hc) fun _ => h.record hc hsite
    exact heval.mono (fun hallowed => hallowed) fun _ => h.offRail

theorem Stable.kept (h : Stable context kind bound inv allowed) (fuel : Nat) :
  Kept context kind bound inv allowed fuel
  := by
  have hkept := h.isLawful.kept fuel
  have hany : ∀ e : Expr, e.Every fun _ => True := fun _ _ _ => trivial
  exact {
    eval e hc hs := hkept.eval ⟨hc, hs, hany e⟩
    lookAt e hc hs := hkept.lookAt ⟨hc, hs, hany e⟩
    evalNode e hc hs := hkept.evalNode ⟨hc, hs, hany e⟩
    evalArgs es hc hs := hkept.evalArgs ⟨hc, hs, fun e _ => hany e⟩
    evalItems es hc hs := hkept.evalItems ⟨hc, hs, fun e _ => hany e⟩
    evalFields fields hc hs := hkept.evalFields ⟨hc, hs, fun field _ => hany field.2⟩
    evalCases cases hc hs hv hchosen :=
      hkept.evalCases ⟨hc, hs, fun case _ => ⟨hany case.2, fun _ _ => trivial⟩, hv, hchosen⟩
    applyValue hc hcallee hargs := hkept.applyValue ⟨hc, trivial, hcallee, hargs⟩
    applyCallable hc hf hargs := hkept.applyCallable ⟨hc, trivial, h.value hf, hargs⟩
    call hc hargs := hkept.call ⟨hc, trivial, h.atom rfl, hargs⟩
    carryOut hc hf hargs hreal :=
      hkept.carryOut ⟨hc, trivial, ⟨_, h.atom rfl, hf⟩, hargs, hreal⟩
    carryOutBody hc hf hbody hsite hargs hreal :=
      hkept.carryOutBody ⟨⟨hc, hsite, _, hf⟩, ⟨_, hbody⟩, hargs, hreal⟩
    carryOutBuiltin hc hf hb hsite hargs hreal :=
      hkept.carryOutBuiltin ⟨⟨hc, hsite, _, hf⟩, hb, trivial, hargs, hreal⟩
    runSteps step hc hstep := hkept.runSteps ⟨hc, trivial, h.stays hstep⟩ }

/-! ### Code that is not taken -/

variable {c : Context}

theorem reportPattern_keeps_of_report {executed : Bool}
    (hreport : ∀ id value, Run.Keeps inv allowed (fun _ => True) (Run.report c executed id value))
    {reports : List (NodeId × Value)} :
  Run.Keeps inv allowed (fun _ => True) (reportPattern c executed reports)
  := by
  induction reports with
  | nil => exact Run.Keeps.done trivial
  | cons report rest ih =>
    apply Run.Keeps.bind (hreport report.1 report.2)
    intro _ _
    exact ih

/-- The cases after the one that is taken leave its value alone. -/
theorem evalCases_keeps_chosen
    (hlook : ∀ fuel scope e, Run.Keeps inv allowed (fun _ => True) (lookAt fuel c scope e))
    (hreport : ∀ id value, Run.Keeps inv allowed (fun _ => True) (Run.report c false id value))
    {scope : Scope} {value result : Value} :
  ∀ (fuel : Nat) (cases : List (Pattern × Expr)), Run.Keeps inv allowed (· = some result)
    (evalCases fuel c scope value cases (some result))
  | 0, _ => Run.Keeps.outOfFuel
  | _ + 1, [] => Run.Keeps.done rfl
  | fuel + 1, (pattern, body) :: rest => by
    rw [evalCases]
    apply Run.Keeps.bind (hlook _ _ _)
    intro _ _
    apply Run.Keeps.bind (reportPattern_keeps_of_report hreport)
    intro _ _
    exact evalCases_keeps_chosen hlook hreport fuel rest

end Interpreter

end LiveExpr
