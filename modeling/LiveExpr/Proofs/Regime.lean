import LiveExpr.Proofs.Frames
import LiveExpr.Proofs.Keeping
import LiveExpr.Proofs.Parts

/-!
# Regimes

A regime says in which contexts code is run, which nodes the code of a toplevel may have,
where fake values may come from, which values there are, and what holds of the world. It is
lawful if what the language does with values, contexts and the world keeps to it, step by
step; then evaluation keeps to it altogether, whatever the program. Main statement:
`Regime.IsLawful.kept`.
-/

namespace LiveExpr

/-- The value that is applied. -/
def Callable.value : Callable → Value
  | .named name => .named name
  | .lambda parameters scope body => .lambda parameters scope body

/-- A value that can be called is a function value. -/
theorem Callable.value_of_callable? {value : Value} {f : Callable}
    (h : value.callable? = some f) :
  f.value = value
  := by
  cases value <;> cases h <;> rfl

/-- Whether a built-in stays among values of a kind, as long as what it applies does. -/
def BuiltinStep.Stays (kind : Value → Prop) : BuiltinStep → Prop
  | .finish (.ok value) | .finish (.error (.fake value)) => kind value
  | .finish (.error _) | .fail _ => True
  | .apply f args _ _ next =>
    kind f.value ∧ (∀ arg ∈ args, kind arg) ∧ ∀ value, kind value → (next value).Stays kind

/-- Of steps that stay within nothing, nothing is asked. -/
theorem BuiltinStep.stays_trivial (step : BuiltinStep) :
  step.Stays fun _ => True
  := by
  induction step with
  | finish result => rcases result with (_ | _ | _) | _ <;> trivial
  | fail reason => trivial
  | apply f args position railUse next ih => exact ⟨trivial, fun _ _ => trivial, fun v _ => ih v⟩

/-- Whether a pattern binds and reports values of a kind. -/
def Matching.Within (kind bound : Value → Prop) (m : Matching) : Prop :=
  (∀ pair ∈ m.bindings, bound pair.2) ∧ ∀ report ∈ m.reports, kind report.2

/-- Arguments without a value on the rail, an incomplete value or an error are data. -/
theorem Value.isFake_of_find? {args : List Value} (hrails : args.find? isErrorRail = none)
    (hbad : args.find? (fun value => value.isIncomplete || value.isFailure) = none) :
  ∀ arg ∈ args, arg.isFake = false
  := by
  intro arg harg
  have hrail := List.find?_eq_none.mp hrails arg harg
  have hok := List.find?_eq_none.mp hbad arg harg
  cases arg <;> simp_all [isFake, isErrorRail, isIncomplete, isFailure]

/-- What is not fake is not on the error rail. -/
theorem Value.isErrorRail_of_isFake {value : Value} (h : value.isFake = false) :
  value.isErrorRail = false
  := by
  cases value <;> first | rfl | cases h

namespace Interpreter

/-- Whether the values of a kind, and those that variables are bound to, are closed under
what code at some places does with values. -/
structure ClosedValues (kind bound : Value → Prop) (place : ToplevelId → NodeId → Prop) :
    Prop where
  plain : ∀ {value}, value.isAtom = true → value.isFake = false → value.callable? = none →
    kind value
  incomplete : ∀ {toplevel id}, place toplevel id → kind (.incomplete (.node toplevel id))
  failure : ∀ {toplevel id message}, place toplevel id →
    kind (.failure (.node toplevel id) message)
  ofItems : ∀ {items}, (∀ item ∈ items, kind item) → kind (.ofItems items)
  ofPairs : ∀ {pairs}, (∀ pair ∈ pairs, kind pair.2) → kind (.ofPairs pairs)
  field : ∀ {fields name value}, kind (.record fields) →
    Fields.get? name fields = some value → kind value
  just : ∀ {value}, kind value → kind (wrap .just value)
  ok : ∀ {value}, kind value → kind (wrap .ok value)
  error : ∀ {value}, kind value → kind (wrap .error value)
  payload : ∀ {name value inner}, kind value →
    Matching.payload? name value = some inner → kind inner
  toRail : ∀ {toplevel id value}, place toplevel id → kind value →
    kind (toRail (.node toplevel id) value)
  offRail : ∀ {value}, kind value → kind value.offRail
  bind : ∀ {value}, kind value → value.isErrorRail = false → bound value
  look : ∀ {value}, bound value → kind value

theorem ClosedValues.trivial :
  ClosedValues (fun _ => True) (fun _ => True) fun _ _ => True
  := by
  constructor <;> intros <;> exact True.intro

/-- What holds where during a run. -/
structure Regime where
  /-- The contexts in which code is run. -/
  context : Context → Prop
  /-- The contexts inside of a call of a function, with the site of the call. -/
  entered : Context → Function → CallSite → Prop
  /-- The nodes of the code that is run in a toplevel. -/
  node : ToplevelId → Expr → Prop
  /-- Where fake values may come from. -/
  place : ToplevelId → NodeId → Prop
  /-- The values that there are. -/
  kind : Value → Prop
  /-- The values that variables are bound to. -/
  bound : Value → Prop
  /-- What holds of the world. -/
  world : World → Prop
  /-- Whether there may be faults other than those of built-ins. -/
  faults : Prop

namespace Regime

/-- Whether a run keeps to a regime, and its values meet a predicate. -/
def Keeps {α : Type} (r : Regime) (kind : α → Prop) (run : Run α) : Prop :=
  Run.Keeps r.world r.faults kind run

/-- Whether each step of evaluation keeps to a regime. -/
structure IsLawful (r : Regime) : Prop extends ClosedValues r.kind r.bound r.place where
  -- code
  id : ∀ {toplevel e}, r.node toplevel e → r.place toplevel e.id
  pattern : ∀ {toplevel id scrutinee cases}, r.node toplevel (.matchCases id scrutinee cases) →
    ∀ case ∈ cases, ∀ i ∈ case.1.ids, r.place toplevel i
  parameter : ∀ {toplevel id parameters body}, r.node toplevel (.lambda id parameters body) →
    ∀ parameter ∈ parameters, r.place toplevel parameter.1
  named : ∀ {toplevel id name}, r.node toplevel (.functionValue id name) → r.kind (.named name)
  lambda : ∀ {toplevel id parameters scope body},
    (Expr.lambda id parameters body).Every (r.node toplevel) → Fields.All r.bound scope →
    r.kind (.lambda parameters scope body)
  captured : ∀ {parameters scope body}, r.kind (.lambda parameters scope body) →
    Fields.All r.bound scope
  applied : ∀ {c parameters scope body}, r.context c → r.kind (.lambda parameters scope body) →
    body.Every (r.node c.toplevel)
  -- contexts
  lookAside : ∀ {c}, r.context c → r.context c.lookAside
  enters : ∀ {c name f id}, r.context c → r.kind (.named name) →
    Assoc.get? name c.registry = some f →
    (f.isBuiltin = false → c.mode = .preview → c.stack.outerCall? f.name = none) →
    r.entered (c.inCall f.name id) f (c.site f.name id)
  inside : ∀ {c f site}, r.entered c f site → r.context c
  inToplevel : ∀ {c f site origin toplevel body}, r.entered c f site →
    f.implementation = .written origin toplevel body →
    r.context (c.inToplevel toplevel) ∧ body.Every (r.node toplevel)
  builtin : ∀ {c f site b known args}, r.entered c f site → f.implementation = .builtin b →
    (∀ arg ∈ args, r.kind arg) → (∀ arg ∈ args, arg.isFake = false) →
    (b.run known args).Stays r.kind
  -- the world
  report : ∀ {c executed id value}, r.context c → (executed = true → c.onPath = true) →
    r.kind value → r.Keeps (fun _ => True) (Run.report c executed id value)
  enter : ∀ {c f site toplevel}, r.entered c f site →
    r.Keeps (fun _ => True) (Run.enter c toplevel)
  load : ∀ {c site args}, r.context c →
    r.Keeps (fun found => ∀ value, found = some value → r.kind value) (Run.load c site args)
  invoke : ∀ {c f site args}, r.entered c f site →
    (f.previewability = .impure → c.mode.allowsImpureCalls = true) →
    r.Keeps (fun _ => True) (Run.invoke c f args)
  record : ∀ {c f site b args value}, r.entered c f site → f.implementation = .builtin b →
    f.previewability = .repeatable → r.kind value →
    r.Keeps (fun _ => True) (Run.record c site args value)
  body : ∀ {fuel c f site origin toplevel body args}, r.entered c f site →
    f.implementation = .written origin toplevel body → (∀ arg ∈ args, r.kind arg) →
    r.Keeps r.kind (eval fuel (c.inToplevel toplevel)
      (Fields.ofPairs ((f.parameters.map Parameter.name).zip args)) body) →
    r.Keeps r.kind (carryOutBody (fuel + 1) c f toplevel body site args)

/-- Whether a function of the interpreter keeps to a regime in what it is given. -/
def Admits (r : Regime) : Activation → Prop
  | .eval c scope e | .lookAt c scope e | .evalNode c scope e =>
    r.context c ∧ scope.All r.bound ∧ e.Every (r.node c.toplevel)
  | .evalArgs c scope es | .evalItems c scope es =>
    r.context c ∧ scope.All r.bound ∧ ∀ e ∈ es, e.Every (r.node c.toplevel)
  | .evalFields c scope fields =>
    r.context c ∧ scope.All r.bound ∧ ∀ field ∈ fields, field.2.Every (r.node c.toplevel)
  | .evalCases c scope value cases chosen =>
    r.context c ∧ scope.All r.bound
      ∧ (∀ case ∈ cases, case.2.Every (r.node c.toplevel)
        ∧ ∀ i ∈ case.1.ids, r.place c.toplevel i)
      ∧ r.kind value ∧ ∀ result, chosen = some result → r.kind result
  | .applyValue c id callee args _ _ =>
    r.context c ∧ r.place c.toplevel id ∧ r.kind callee ∧ ∀ arg ∈ args, r.kind arg
  | .applyCallable c id f args _ _ =>
    r.context c ∧ r.place c.toplevel id ∧ r.kind f.value ∧ ∀ arg ∈ args, r.kind arg
  | .call c name id args _ _ =>
    r.context c ∧ r.place c.toplevel id ∧ r.kind (.named name) ∧ ∀ arg ∈ args, r.kind arg
  | .carryOut c f id args =>
    r.context c ∧ r.place c.toplevel id
      ∧ (∃ name, r.kind (.named name) ∧ Assoc.get? name c.registry = some f)
      ∧ (∀ arg ∈ args, r.kind arg) ∧ ∀ arg ∈ args, arg.isFake = false
  | .carryOutBody c f toplevel body site args =>
    r.entered c f site ∧ (∃ origin, f.implementation = .written origin toplevel body)
      ∧ (∀ arg ∈ args, r.kind arg) ∧ ∀ arg ∈ args, arg.isFake = false
  | .carryOutBuiltin c f b site args =>
    r.entered c f site ∧ f.implementation = .builtin b ∧ r.place c.toplevel site.caller
      ∧ (∀ arg ∈ args, r.kind arg) ∧ ∀ arg ∈ args, arg.isFake = false
  | .runSteps c caller step =>
    r.context c ∧ r.place c.toplevel caller ∧ step.Stays r.kind

/-- What holds of evaluation with some fuel in a regime. -/
structure KeptAt (r : Regime) (fuel : Nat) : Prop where
  eval : ∀ {c scope e}, r.Admits (.eval c scope e) → r.Keeps r.kind (eval fuel c scope e)
  lookAt : ∀ {c scope e}, r.Admits (.lookAt c scope e) →
    r.Keeps (fun _ => True) (lookAt fuel c scope e)
  evalNode : ∀ {c scope e}, r.Admits (.evalNode c scope e) →
    r.Keeps r.kind (evalNode fuel c scope e)
  evalArgs : ∀ {c scope es}, r.Admits (.evalArgs c scope es) →
    r.Keeps (fun values => ∀ value ∈ values, r.kind value) (evalArgs fuel c scope es)
  evalItems : ∀ {c scope es}, r.Admits (.evalItems c scope es) →
    r.Keeps (fun result => (∀ value, result = .error value → r.kind value) ∧
        ∀ values, result = .ok values → ∀ value ∈ values, r.kind value)
      (evalItems fuel c scope es)
  evalFields : ∀ {c scope fields}, r.Admits (.evalFields c scope fields) →
    r.Keeps (fun pairs => ∀ pair ∈ pairs, r.kind pair.2) (evalFields fuel c scope fields)
  evalCases : ∀ {c scope value cases chosen}, r.Admits (.evalCases c scope value cases chosen) →
    r.Keeps (fun chosen => ∀ result, chosen = some result → r.kind result)
      (evalCases fuel c scope value cases chosen)
  applyValue : ∀ {c id callee args position railUse},
    r.Admits (.applyValue c id callee args position railUse) →
    r.Keeps r.kind (applyValue fuel c id callee args position railUse)
  applyCallable : ∀ {c id f args position railUse},
    r.Admits (.applyCallable c id f args position railUse) →
    r.Keeps r.kind (applyCallable fuel c id f args position railUse)
  call : ∀ {c name id args position railUse}, r.Admits (.call c name id args position railUse) →
    r.Keeps r.kind (call fuel c name id args position railUse)
  carryOut : ∀ {c f id args}, r.Admits (.carryOut c f id args) →
    r.Keeps r.kind (carryOut fuel c f id args)
  carryOutBody : ∀ {c f toplevel body site args},
    r.Admits (.carryOutBody c f toplevel body site args) →
    r.Keeps r.kind (carryOutBody fuel c f toplevel body site args)
  carryOutBuiltin : ∀ {c f b site args}, r.Admits (.carryOutBuiltin c f b site args) →
    r.Keeps r.kind (carryOutBuiltin fuel c f b site args)
  runSteps : ∀ {c caller step}, r.Admits (.runSteps c caller step) →
    Run.Keeps r.world True
      (fun result => ∀ value, result = .ok value ∨ result = .error (.fake value) →
        r.kind value)
      (runSteps fuel c caller step)

end Regime

/-! ### Values -/

open Run (Keeps)

variable {r : Regime} {fuel : Nat} {c : Context} {scope : Scope}

/-- A literal pattern reports what it expects, and binds nothing. -/
theorem literal_within {kind bound : Value → Prop} {value expected : Value} {id : NodeId}
    (he : kind expected) :
  (Matching.literal value id expected).Within kind bound
  := by
  constructor
  · simp [Matching.literal]
  · simpa [Matching.literal] using he

/-- A pattern that is refuted reports what it was given, and binds nothing. -/
theorem refuted_within {kind bound : Value → Prop} {value : Value} {id : NodeId}
    (hv : kind value) :
  (Matching.refuted id value).Within kind bound
  := by
  constructor
  · simp [Matching.refuted]
  · simpa [Matching.refuted] using hv

namespace Regime.IsLawful

theorem ofCharacter (h : r.IsLawful) {text : String} {value : Value}
    (hv : Value.ofCharacter text = .ok value) :
  r.kind value
  := by
  unfold Value.ofCharacter at hv
  dsimp only at hv
  split at hv
  · cases hv
    exact h.plain rfl rfl rfl
  · cases hv

/-- A pattern binds parts of the value that are not fake. -/
theorem check (h : r.IsLawful) (toplevel : ToplevelId) {value : Value} (pattern : Pattern)
    (hv : r.kind value) (hp : ∀ id ∈ pattern.ids, r.place toplevel id) :
  (Matching.check toplevel value pattern).Within r.kind r.bound
  := by
  fun_induction Matching.check toplevel value pattern with
  | case1 | case2 | case3 | case4 | case5 | case11 => exact literal_within (h.plain rfl rfl rfl)
  | case6 _ _ _ _ hc => exact literal_within (h.ofCharacter hc)
  | case7 => exact refuted_within (h.failure (hp _ (by simp [Pattern.ids])))
  | case16 => exact refuted_within (h.failure (hp _ (by simp [Pattern.ids])))
  | case10 => exact refuted_within (h.incomplete (hp _ (by simp [Pattern.ids])))
  | case12 => exact refuted_within (h.incomplete (hp _ (by simp [Pattern.ids])))
  | case15 => exact refuted_within (h.incomplete (hp _ (by simp [Pattern.ids])))
  | case8 => exact refuted_within hv
  | case9 value _ _ hf =>
    have hr : value.isErrorRail = false := Value.isErrorRail_of_isFake (by simpa using hf)
    constructor
    · simpa using h.bind hv hr
    · simpa using hv
  | case13 value id _ _ _ _ _ hpayload _ ih =>
    obtain ⟨hb, hr⟩ := ih (h.payload hv hpayload) fun i hi =>
      hp i (by simp [Pattern.ids, Pattern.idsOfList, hi])
    constructor
    · exact hb
    · exact List.forall_mem_cons.mpr ⟨hv, hr⟩
  | case14 _ id _ hole _ _ _ _ _ ih =>
    have hhole : r.kind hole := h.incomplete (hp id (by simp [Pattern.ids]))
    obtain ⟨hb, hr⟩ := ih hhole fun i hi =>
      hp i (by simp [Pattern.ids, Pattern.idsOfList, hi])
    constructor
    · exact hb
    · exact List.forall_mem_append.mpr ⟨hr, List.forall_mem_singleton.mpr hhole⟩

/-- A result that is checked is of the kind, whether it passes or not. -/
theorem checkedResult (h : r.IsLawful) {types : TypeTable} {id : NodeId} {f : Function}
    {result : Value} (hplace : r.place c.toplevel id) (hresult : r.kind result) :
  r.kind (checkedResult types (c.source id) f result)
  := by
  unfold Interpreter.checkedResult
  split
  · exact hresult
  · exact h.failure hplace

end Regime.IsLawful

/-- Arguments that are not fake may be bound to variables. -/
theorem bodyScope_bound (h : r.IsLawful) {args : List Value} (names : List String)
    (hargs : ∀ arg ∈ args, r.kind arg) (hreal : ∀ arg ∈ args, arg.isFake = false) :
  (Fields.ofPairs (names.zip args)).All r.bound
  := by
  apply Fields.All.ofPairs
  intro pair hpair
  have harg := (List.of_mem_zip hpair).2
  exact h.bind (hargs pair.2 harg) (Value.isErrorRail_of_isFake (hreal pair.2 harg))

/-! ### Reports and results -/

theorem reportParameters_keeps (h : r.IsLawful) (hc : r.context c)
    {parameters : List (NodeId × String)}
    (hplaces : ∀ parameter ∈ parameters, r.place c.toplevel parameter.1) :
  r.Keeps (fun _ => True) (reportParameters c parameters)
  := by
  induction parameters with
  | nil => exact Keeps.done trivial
  | cons parameter rest ih =>
    obtain ⟨hplace, hplaces⟩ := List.forall_mem_cons.mp hplaces
    apply Keeps.bind (h.report hc (fun hpath => hpath) (h.incomplete hplace))
    intro _ _
    exact ih hplaces

/-- The reports of a pattern keep a regime that holds what they report. -/
theorem reportPattern_keeps (h : r.IsLawful) (hc : r.context c) {executed : Bool}
    (hpath : executed = true → c.onPath = true) {reports : List (NodeId × Value)}
    (hr : ∀ report ∈ reports, r.kind report.2) :
  r.Keeps (fun _ => True) (reportPattern c executed reports)
  := by
  induction reports with
  | nil => exact Keeps.done trivial
  | cons report rest ih =>
    obtain ⟨hv, hr⟩ := List.forall_mem_cons.mp hr
    apply Keeps.bind (h.report hc hpath hv)
    intro _ _
    exact ih hr

/-- A look-up that may be left out keeps what the look-up keeps. -/
theorem loadIf_keeps {inv : World → Prop} {allowed : Prop} {kind : Option Value → Prop}
    {site : CallSite} {args : List Value} (h : Keeps inv allowed kind (Run.load c site args))
    (hnone : kind none) {wanted : Bool} :
  Keeps inv allowed kind (Run.loadIf wanted c site args)
  := by
  unfold Run.loadIf
  split
  · exact h
  · exact Keeps.done hnone

/-- The body of a function is carried out, or its recorded result is taken and recorded
again. What is recorded meets a predicate of its own. -/
theorem carryOutBody_keeps {inv : World → Prop} {allowed : Prop} {f : Function}
    {toplevel : ToplevelId} {body : Expr} {site : CallSite} {args : List Value}
    {recorded : Value → Prop}
    (henter : Keeps inv allowed (fun _ => True) (Run.enter c toplevel))
    (hload : Keeps inv allowed (fun found => ∀ value, found = some value → recorded value)
      (Run.load c site args))
    (hrecord : ∀ value, recorded value →
      Keeps inv allowed (fun _ => True) (Run.record c site args value))
    (heval : Keeps inv allowed (fun value => recorded value.offRail)
      (eval fuel (c.inToplevel toplevel)
        (Fields.ofPairs ((f.parameters.map Parameter.name).zip args)) body)) :
  Keeps inv allowed recorded (carryOutBody (fuel + 1) c f toplevel body site args)
  := by
  rw [carryOutBody]
  apply Keeps.bind henter
  intro _ _
  apply Keeps.bind (loadIf_keeps hload (by rintro _ ⟨⟩))
  intro found hfound
  split
  · next result =>
    apply Keeps.bind (hrecord result (hfound result rfl))
    intro _ _
    exact Keeps.done (hfound result rfl)
  · apply Keeps.bind heval
    intro value hv
    apply Keeps.bind (hrecord value.offRail hv)
    intro _ _
    exact Keeps.done hv

/-! ### Expressions -/

/-- The evaluation of an expression keeps the regime if that of the node does. -/
theorem eval_keeps (ih : r.KeptAt fuel) (h : r.IsLawful) {e : Expr}
    (he : r.Admits (.eval c scope e)) :
  r.Keeps r.kind (eval (fuel + 1) c scope e)
  := by
  rw [eval]
  apply Keeps.bind (ih.evalNode he)
  intro value hv
  apply Keeps.bind (h.report he.1 (fun hpath => hpath) hv)
  intro _ _
  exact Keeps.done hv

/-- A look at code keeps the regime. -/
theorem lookAt_keeps (ih : r.KeptAt fuel) (h : r.IsLawful) {e : Expr}
    (he : r.Admits (.lookAt c scope e)) :
  r.Keeps (fun _ => True) (lookAt (fuel + 1) c scope e)
  := by
  rw [lookAt]
  apply Keeps.bind (ih.eval ⟨h.lookAside he.1, he.2⟩)
  intro _ _
  exact Keeps.done trivial

/-- Arguments are of the kind, one after another. -/
theorem evalArgs_keeps (ih : r.KeptAt fuel) {es : List Expr}
    (hes : r.Admits (.evalArgs c scope es)) :
  r.Keeps (fun values => ∀ value ∈ values, r.kind value) (evalArgs (fuel + 1) c scope es)
  := by
  obtain ⟨hc, hs, hcode⟩ := hes
  cases es with
  | nil => exact Keeps.done nofun
  | cons e rest =>
    obtain ⟨he, hrest⟩ := List.forall_mem_cons.mp hcode
    rw [evalArgs]
    apply Keeps.bind (ih.eval ⟨hc, hs, he⟩)
    intro value hv
    apply Keeps.bind (ih.evalArgs ⟨hc, hs, hrest⟩)
    intro values hvs
    exact Keeps.done (List.forall_mem_cons.mpr ⟨hv, hvs⟩)

/-- Items are of the kind, and so is one on the error rail. -/
theorem evalItems_keeps (ih : r.KeptAt fuel) {es : List Expr}
    (hes : r.Admits (.evalItems c scope es)) :
  r.Keeps (fun result => (∀ value, result = .error value → r.kind value) ∧
      ∀ values, result = .ok values → ∀ value ∈ values, r.kind value)
    (evalItems (fuel + 1) c scope es)
  := by
  obtain ⟨hc, hs, hcode⟩ := hes
  cases es with
  | nil => exact Keeps.done ⟨nofun, by rintro _ ⟨⟩; exact nofun⟩
  | cons e rest =>
    obtain ⟨he, hrest⟩ := List.forall_mem_cons.mp hcode
    rw [evalItems]
    apply Keeps.bind (ih.eval ⟨hc, hs, he⟩)
    intro value hv
    split
    · exact Keeps.done ⟨by rintro _ ⟨⟩; exact hv, nofun⟩
    · apply Keeps.bind (ih.evalItems ⟨hc, hs, hrest⟩)
      rintro (rail | values) ⟨hrail, hvs⟩
      · exact Keeps.done ⟨by rintro _ ⟨⟩; exact hrail rail rfl, nofun⟩
      · apply Keeps.done
        refine ⟨nofun, ?_⟩
        rintro _ ⟨⟩
        split
        · exact hvs values rfl
        · exact List.forall_mem_cons.mpr ⟨hv, hvs values rfl⟩

/-- Fields are of the kind, one after another. -/
theorem evalFields_keeps (ih : r.KeptAt fuel) {fields : List (String × Expr)}
    (hfields : r.Admits (.evalFields c scope fields)) :
  r.Keeps (fun pairs => ∀ pair ∈ pairs, r.kind pair.2) (evalFields (fuel + 1) c scope fields)
  := by
  obtain ⟨hc, hs, hcode⟩ := hfields
  cases fields with
  | nil => exact Keeps.done nofun
  | cons field rest =>
    obtain ⟨name, e⟩ := field
    obtain ⟨he, hrest⟩ := List.forall_mem_cons.mp hcode
    rw [evalFields]
    split
    · exact ih.evalFields ⟨hc, hs, hrest⟩
    · apply Keeps.bind (ih.eval ⟨hc, hs, he⟩)
      intro value hv
      apply Keeps.bind (ih.evalFields ⟨hc, hs, hrest⟩)
      intro pairs hps
      exact Keeps.done (List.forall_mem_cons.mpr ⟨hv, hps⟩)

/-- The cases of a match keep the regime, and what is chosen is of the kind. -/
theorem evalCases_keeps (ih : r.KeptAt fuel) (h : r.IsLawful) {value : Value}
    {chosen : Option Value} {cases : List (Pattern × Expr)}
    (hcases : r.Admits (.evalCases c scope value cases chosen)) :
  r.Keeps (fun chosen => ∀ result, chosen = some result → r.kind result)
    (evalCases (fuel + 1) c scope value cases chosen)
  := by
  obtain ⟨hc, hs, hcode, hv, hchosen⟩ := hcases
  cases cases with
  | nil => exact Keeps.done hchosen
  | cons case rest =>
    obtain ⟨pattern, body⟩ := case
    obtain ⟨⟨hbody, hpattern⟩, hrest⟩ := List.forall_mem_cons.mp hcode
    obtain ⟨hbindings, hreports⟩ := h.check c.toplevel pattern hv hpattern
    have hs' : Fields.All r.bound ((Matching.check c.toplevel value pattern).extend scope) :=
      hs.extend hbindings
    rw [evalCases]
    split
    · apply Keeps.bind (ih.eval ⟨hc, hs', hbody⟩)
      intro result hresult
      apply Keeps.bind (reportPattern_keeps h hc (fun hpath => hpath) hreports)
      intro _ _
      exact ih.evalCases ⟨hc, hs, hrest, hv, by rintro _ ⟨⟩; exact hresult⟩
    · apply Keeps.bind (ih.lookAt ⟨hc, hs', hbody⟩)
      intro _ _
      have haside : false = true → c.onPath = true := nofun
      apply Keeps.bind (reportPattern_keeps h hc haside hreports)
      intro _ _
      exact ih.evalCases ⟨hc, hs, hrest, hv, hchosen⟩

/-- A constructor keeps the regime with its payload. -/
theorem constructor_keeps (ih : r.KeptAt fuel) (h : r.IsLawful) {id : NodeId} {name : String}
    {args : List Expr} (he : r.Admits (.evalNode c scope (.constructor id name args))) :
  r.Keeps r.kind (evalNode (fuel + 1) c scope (.constructor id name args))
  := by
  obtain ⟨hc, hs, hcode⟩ := he
  unfold evalNode
  dsimp only
  split
  · exact Keeps.done (h.plain rfl rfl rfl)
  · apply Keeps.bind (ih.eval ⟨hc, hs, hcode.child List.mem_cons_self⟩)
    intro _ hv
    exact Keeps.done (h.just hv)
  · apply Keeps.bind (ih.eval ⟨hc, hs, hcode.child List.mem_cons_self⟩)
    intro _ hv
    exact Keeps.done (h.ok hv)
  · apply Keeps.bind (ih.eval ⟨hc, hs, hcode.child List.mem_cons_self⟩)
    intro _ hv
    exact Keeps.done (h.error hv)
  · split
    · exact Keeps.done (h.incomplete (h.id hcode.self))
    · exact Keeps.done (h.failure (h.id hcode.self))

/-- Code that is not taken is looked at before the other is evaluated. -/
theorem taken_keeps (ih : r.KeptAt fuel) {other taken : Expr}
    (hother : r.Admits (.lookAt c scope other)) (htaken : r.Admits (.eval c scope taken)) :
  r.Keeps r.kind (do lookAt fuel c scope other; eval fuel c scope taken)
  := by
  apply Keeps.bind (ih.lookAt hother)
  intro _ _
  exact ih.eval htaken

/-- A conditional keeps the regime in either branch. -/
theorem conditional_keeps (ih : r.KeptAt fuel) {id : NodeId}
    {condition thenCase elseCase : Expr}
    (he : r.Admits (.evalNode c scope (.conditional id condition thenCase elseCase))) :
  r.Keeps r.kind (evalNode (fuel + 1) c scope (.conditional id condition thenCase elseCase))
  := by
  obtain ⟨hc, hs, hcode⟩ := he
  have hthen : thenCase.Every (r.node c.toplevel) := hcode.child (by simp [Expr.children])
  have helse : elseCase.Every (r.node c.toplevel) := hcode.child (by simp [Expr.children])
  rw [evalNode]
  apply Keeps.bind (ih.eval ⟨hc, hs, hcode.child List.mem_cons_self⟩)
  intro condition hv
  split
  · exact taken_keeps ih ⟨hc, hs, hthen⟩ ⟨hc, hs, helse⟩
  · exact taken_keeps ih ⟨hc, hs, hthen⟩ ⟨hc, hs, helse⟩
  · split
    · apply Keeps.bind (ih.lookAt ⟨hc, hs, hthen⟩)
      intro _ _
      apply Keeps.bind (ih.lookAt ⟨hc, hs, helse⟩)
      intro _ _
      exact Keeps.done hv
    · apply Keeps.bind (ih.eval ⟨hc, hs, hthen⟩)
      intro value hv
      apply Keeps.bind (ih.lookAt ⟨hc, hs, helse⟩)
      intro _ _
      exact Keeps.done hv

/-- The cases of a match are admitted with a value of the kind. -/
theorem Regime.IsLawful.admits_cases (h : r.IsLawful) {id : NodeId} {scrutinee : Expr}
    {cases : List (Pattern × Expr)} {value : Value}
    (he : r.Admits (.evalNode c scope (.matchCases id scrutinee cases))) (hv : r.kind value) :
  r.Admits (.evalCases c scope value cases none)
  := by
  obtain ⟨hc, hs, hcode⟩ := he
  refine ⟨hc, hs, ?_, hv, ?_⟩
  · intro case hcase
    constructor
    · exact hcode.child (List.mem_cons_of_mem _ (List.mem_map_of_mem hcase))
    · exact h.pattern hcode.self case hcase
  · rintro _ ⟨⟩

/-- The evaluation of a node keeps the regime, by cases on the node. -/
theorem evalNode_keeps (ih : r.KeptAt fuel) (h : r.IsLawful) {e : Expr}
    (he : r.Admits (.evalNode c scope e)) :
  r.Keeps r.kind (evalNode (fuel + 1) c scope e)
  := by
  have ⟨hc, hs, hcode⟩ := he
  cases e with
  | integer | float | bool | null | string => exact Keeps.done (h.plain rfl rfl rfl)
  | blank id => exact Keeps.done (h.incomplete (h.id hcode.self))
  | functionValue id name => exact Keeps.done (h.named hcode.self)
  | character id text =>
    rw [evalNode]
    split
    · next hv => exact Keeps.done (h.ofCharacter hv)
    · exact Keeps.done (h.failure (h.id hcode.self))
  | letIn id name value body =>
    rw [evalNode]
    apply Keeps.bind (ih.eval ⟨hc, hs, hcode.child List.mem_cons_self⟩)
    intro value hv
    split
    · exact Keeps.done hv
    · next hrail =>
      refine ih.eval ⟨hc, ?_, hcode.child (by simp [Expr.children])⟩
      split
      · exact hs
      · exact hs.insert (h.bind hv (by simpa using hrail))
  | list id items =>
    rw [evalNode]
    apply Keeps.bind (ih.evalItems ⟨hc, hs, fun _ => hcode.child⟩)
    rintro (rail | values) ⟨hrail, hvalues⟩
    · exact Keeps.done (hrail rail rfl)
    · exact Keeps.done (h.ofItems (hvalues values rfl))
  | record id fields =>
    rw [evalNode]
    apply Keeps.bind (ih.evalFields ⟨hc, hs, fun _ hfield =>
      hcode.child (List.mem_map_of_mem hfield)⟩)
    intro pairs hpairs
    exact Keeps.done (h.ofPairs hpairs)
  | «variable» id name =>
    rw [evalNode]
    split
    · next hv => exact Keeps.done (h.look (hs.get? hv))
    · split
      · exact Keeps.done (h.incomplete (h.id hcode.self))
      · exact Keeps.done (h.failure (h.id hcode.self))
  | fieldAccess id object field =>
    rw [evalNode]
    apply Keeps.bind (ih.eval ⟨hc, hs, hcode.child List.mem_cons_self⟩)
    intro value hv
    split
    · apply Keeps.done
      next fields =>
      cases hf : Fields.get? field fields with
      | none => exact h.plain rfl rfl rfl
      | some value => exact h.field hv hf
    · split
      · exact Keeps.done hv
      · exact Keeps.done (h.failure (h.id hcode.self))
  | lambda id parameters body =>
    rw [evalNode]
    split
    · apply Keeps.bind (reportParameters_keeps h hc (h.parameter hcode.self))
      intro _ _
      exact Keeps.done (h.lambda hcode hs)
    · exact Keeps.done (h.lambda hcode hs)
  | conditional id condition thenCase elseCase => exact conditional_keeps ih he
  | featureFlag id condition oldCode newCode =>
    have hold : oldCode.Every (r.node c.toplevel) := hcode.child (by simp [Expr.children])
    have hnew : newCode.Every (r.node c.toplevel) := hcode.child (by simp [Expr.children])
    have hcondition := ih.eval ⟨hc, hs, hcode.child List.mem_cons_self⟩
    rw [evalNode]
    apply Keeps.bind (Keeps.caught (hcondition.mono (fun _ => trivial) fun _ hv => hv))
    intro condition _
    split
    · exact taken_keeps ih ⟨hc, hs, hold⟩ ⟨hc, hs, hnew⟩
    · exact taken_keeps ih ⟨hc, hs, hnew⟩ ⟨hc, hs, hold⟩
  | constructor id name args => exact constructor_keeps ih h he
  | matchCases id scrutinee cases =>
    rw [evalNode]
    apply Keeps.bind (ih.eval ⟨hc, hs, hcode.child List.mem_cons_self⟩)
    intro value hv
    apply Keeps.bind (ih.evalCases (h.admits_cases he hv))
    intro chosen hchosen
    split
    · exact Keeps.done (hchosen _ rfl)
    · split
      · exact Keeps.done hv
      · exact Keeps.done (h.incomplete (h.id hcode.self))
  | apply id callee args position railUse =>
    rw [evalNode]
    apply Keeps.bind (ih.eval ⟨hc, hs, hcode.child List.mem_cons_self⟩)
    intro callee hcallee
    apply Keeps.bind (ih.evalArgs ⟨hc, hs, fun _ harg =>
      hcode.child (List.mem_cons_of_mem _ harg)⟩)
    intro args hargs
    apply Keeps.bind (ih.applyValue ⟨hc, h.id hcode.self, hcallee, hargs⟩)
    intro result hresult
    split
    · apply Keeps.bind (h.report hc (fun hpath => hpath) hresult)
      intro _ _
      exact Keeps.done hresult
    · exact Keeps.done hresult

/-! ### Calls -/

/-- The application of a value keeps the regime. -/
theorem applyValue_keeps (ih : r.KeptAt fuel) (h : r.IsLawful) {id : NodeId} {callee : Value}
    {args : List Value} {position : PipePosition} {railUse : RailUse}
    (happly : r.Admits (.applyValue c id callee args position railUse)) :
  r.Keeps r.kind (applyValue (fuel + 1) c id callee args position railUse)
  := by
  obtain ⟨hc, hid, hcallee, hargs⟩ := happly
  unfold applyValue
  split
  · next f hf =>
    rw [← Callable.value_of_callable? hf] at hcallee
    exact ih.applyCallable ⟨hc, hid, hcallee, hargs⟩
  · split
    · apply Keeps.done
      cases args with
      | nil => exact hcallee
      | cons arg _ => exact hargs arg List.mem_cons_self
    · split
      · exact Keeps.done hcallee
      · exact Keeps.done (h.failure hid)

/-- The variables of the body of a lambda: those that it captured, and its parameters. -/
theorem lambdaScope_bound (h : r.IsLawful) {parameters : List (NodeId × String)}
    {captured : Scope} {body : Expr} {args : List Value}
    (hlambda : r.kind (.lambda parameters captured body)) (hargs : ∀ arg ∈ args, r.kind arg)
    (hgood : args.find? (fun value => value.isIncomplete || value.isErrorRail) = none) :
  (Fields.extend captured ((parameters.map Prod.snd).zip args)).All r.bound
  := by
  apply (h.captured hlambda).extend
  intro pair hpair
  have harg := (List.of_mem_zip hpair).2
  have hok := List.find?_eq_none.mp hgood pair.2 harg
  apply h.bind (hargs pair.2 harg)
  simp_all

/-- The application of a function value keeps the regime. -/
theorem applyCallable_keeps (ih : r.KeptAt fuel) (h : r.IsLawful) {id : NodeId} {f : Callable}
    {args : List Value} {position : PipePosition} {railUse : RailUse}
    (happly : r.Admits (.applyCallable c id f args position railUse)) :
  r.Keeps r.kind (applyCallable (fuel + 1) c id f args position railUse)
  := by
  obtain ⟨hc, hid, hf, hargs⟩ := happly
  cases f with
  | named name =>
    rw [applyCallable]
    exact ih.call ⟨hc, hid, hf, hargs⟩
  | lambda parameters captured body =>
    rw [applyCallable]
    split
    · next value hv => exact Keeps.done (hargs value (List.mem_of_find?_eq_some hv))
    · next hgood =>
      split
      · exact Keeps.done (h.failure hid)
      · exact ih.eval ⟨hc, lambdaScope_bound h hf hargs hgood, h.applied hc hf⟩

/-- A call by name keeps the regime: a function of the registry is of the kind. -/
theorem call_keeps (ih : r.KeptAt fuel) (h : r.IsLawful) {name : FunctionName} {id : NodeId}
    {args : List Value} {position : PipePosition} {railUse : RailUse}
    (hcall : r.Admits (.call c name id args position railUse)) :
  r.Keeps r.kind (call (fuel + 1) c name id args position railUse)
  := by
  obtain ⟨hc, hid, hname, hargs⟩ := hcall
  rw [call]
  split
  · next value hv => exact Keeps.done (hargs value (List.mem_of_find?_eq_some hv))
  · next hrails =>
    split
    · split
      · apply Keeps.bind (h.load hc)
        intro recorded hrecorded
        apply Keeps.done
        cases recorded with
        | none => exact h.incomplete hid
        | some value => exact hrecorded value rfl
      · exact Keeps.done (h.failure hid)
    · next f hf =>
      split
      · exact Keeps.done (h.failure hid)
      · split
        · next value hv =>
          have hvalue := hargs value (List.mem_of_find?_eq_some hv)
          split
          · apply Keeps.done
            cases args with
            | nil => cases hv
            | cons arg _ => exact hargs arg List.mem_cons_self
          · exact Keeps.done hvalue
        · next hbad =>
          have hreal := Value.isFake_of_find? hrails hbad
          apply Keeps.bind (ih.carryOut ⟨hc, hid, ⟨name, hname, hf⟩, hargs, hreal⟩)
          intro result hresult
          split
          · exact Keeps.done (h.toRail hid hresult)
          · exact Keeps.done hresult

/-- A function is entered unless a preview is inside of a call of it already. -/
theorem Regime.IsLawful.entered_body (h : r.IsLawful) {name : FunctionName} {f : Function}
    (id : NodeId) (hc : r.context c) (hname : r.kind (.named name))
    (hf : Assoc.get? name c.registry = some f)
    (hunder : ¬ (c.mode = .preview ∧ (c.stack.outerCall? f.name).isSome = true)) :
  r.entered (c.inCall f.name id) f (c.site f.name id)
  := by
  apply h.enters hc hname hf
  intro _ hmode
  rw [Option.eq_none_iff_forall_ne_some]
  intro frame hframe
  apply hunder
  rw [hframe]
  exact ⟨hmode, rfl⟩

/-- A built-in of the registry may be entered wherever it is called. -/
theorem Regime.IsLawful.entered_builtin (h : r.IsLawful) {name : FunctionName} {f : Function}
    {b : Builtin} (id : NodeId) (hc : r.context c) (hname : r.kind (.named name))
    (hf : Assoc.get? name c.registry = some f) (hb : f.implementation = .builtin b) :
  r.entered (c.inCall f.name id) f (c.site f.name id)
  := by
  apply h.enters hc hname hf
  intro hwritten
  rw [Function.isBuiltin, hb] at hwritten
  cases hwritten

/-- Carrying out a function keeps the regime. -/
theorem carryOut_keeps (ih : r.KeptAt fuel) (h : r.IsLawful) {f : Function} {id : NodeId}
    {args : List Value} (hcarry : r.Admits (.carryOut c f id args)) :
  r.Keeps r.kind (carryOut (fuel + 1) c f id args)
  := by
  obtain ⟨hc, hid, ⟨name, hname, hf⟩, hargs, hreal⟩ := hcarry
  rw [carryOut]
  split
  · next b hb =>
    have hentered := h.entered_builtin id hc hname hf hb
    apply Keeps.bind (ih.carryOutBuiltin ⟨hentered, hb, hid, hargs, hreal⟩)
    intro result hresult
    exact Keeps.done (h.checkedResult hid hresult)
  · next hbody =>
    split
    · exact Keeps.done (h.incomplete hid)
    · next hunder =>
      split
      · exact Keeps.done (h.failure hid)
      · have hentered := h.entered_body id hc hname hf hunder
        apply Keeps.bind (ih.carryOutBody ⟨hentered, ⟨_, hbody⟩, hargs, hreal⟩)
        intro result hresult
        exact Keeps.done (h.checkedResult hid hresult)

/-- Carrying out a body keeps the regime, by a recorded result or by evaluation. -/
theorem body_keeps (ih : r.KeptAt fuel) (h : r.IsLawful) {f : Function}
    {toplevel : ToplevelId} {body : Expr} {site : CallSite} {args : List Value}
    (hcarry : r.Admits (.carryOutBody c f toplevel body site args)) :
  r.Keeps r.kind (carryOutBody (fuel + 1) c f toplevel body site args)
  := by
  obtain ⟨hentered, ⟨origin, hbody⟩, hargs, hreal⟩ := hcarry
  obtain ⟨hc, hcode⟩ := h.inToplevel hentered hbody
  apply h.body hentered hbody hargs
  exact ih.eval ⟨hc, bodyScope_bound h _ hargs hreal, hcode⟩

/-- Carrying out a built-in keeps the regime, by a recorded result or by its steps. -/
theorem carryOutBuiltin_keeps (ih : r.KeptAt fuel) (h : r.IsLawful) {f : Function}
    {b : Builtin} {site : CallSite} {args : List Value}
    (hcarry : r.Admits (.carryOutBuiltin c f b site args)) :
  r.Keeps r.kind (carryOutBuiltin (fuel + 1) c f b site args)
  := by
  obtain ⟨hentered, hb, hid, hargs, hreal⟩ := hcarry
  have hc := h.inside hentered
  rw [carryOutBuiltin]
  apply Keeps.bind (loadIf_keeps (h.load hc) (by rintro _ ⟨⟩))
  intro recorded hrecorded
  split
  · exact Keeps.done (hrecorded _ rfl)
  · split
    · exact Keeps.done (h.incomplete hid)
    · next himpure =>
      apply Keeps.bind (h.invoke hentered (by simpa using himpure))
      intro known _
      have hstays : (b.run known args).Stays r.kind := h.builtin hentered hb hargs hreal
      apply Keeps.bind (Keeps.caught (ih.runSteps ⟨hc, hid, hstays⟩))
      intro outcome houtcome
      have hresult : r.kind (builtinResult (c.source site.caller) f.name args outcome) := by
        unfold builtinResult
        split
        · exact houtcome _ rfl _ (.inl rfl)
        · exact houtcome _ rfl _ (.inr rfl)
        · exact h.failure hid
        · exact h.failure hid
        · exact h.failure hid
      split
      · next hrepeatable =>
        apply Keeps.bind (h.record hentered hb hrepeatable hresult)
        intro _ _
        exact Keeps.done hresult
      · exact Keeps.done hresult

/-- The steps of a built-in keep the regime. -/
theorem runSteps_keeps (ih : r.KeptAt fuel) {caller : NodeId} {step : BuiltinStep}
    (hsteps : r.Admits (.runSteps c caller step)) :
  Run.Keeps r.world True
    (fun result => ∀ value, result = .ok value ∨ result = .error (.fake value) → r.kind value)
    (runSteps (fuel + 1) c caller step)
  := by
  obtain ⟨hc, hid, hstep⟩ := hsteps
  cases step with
  | finish result =>
    apply Keeps.done
    rintro value (rfl | rfl)
    · exact hstep
    · exact hstep
  | fail reason => exact Keeps.fault trivial
  | apply f args position railUse next =>
    obtain ⟨hf, hargs, hnext⟩ := hstep
    rw [runSteps]
    have happly : r.Keeps r.kind (applyCallable fuel c caller f args position railUse) :=
      ih.applyCallable ⟨hc, hid, hf, hargs⟩
    apply Keeps.bind (happly.mono (fun _ => trivial) fun _ hv => hv)
    intro value hv
    exact ih.runSteps ⟨hc, hid, hnext value hv⟩

/-! ### Runs -/

/-- With any fuel, whatever the interpreter does keeps a lawful regime. -/
theorem Regime.IsLawful.kept (h : r.IsLawful) :
  ∀ fuel, r.KeptAt fuel
  | 0 => by
    constructor <;> intros <;> exact Keeps.outOfFuel
  | fuel + 1 => by
    have ih := h.kept fuel
    exact {
      eval := eval_keeps ih h
      lookAt := lookAt_keeps ih h
      evalNode := evalNode_keeps ih h
      evalArgs := evalArgs_keeps ih
      evalItems := evalItems_keeps ih
      evalFields := evalFields_keeps ih
      evalCases := evalCases_keeps ih h
      applyValue := applyValue_keeps ih h
      applyCallable := applyCallable_keeps ih h
      call := call_keeps ih h
      carryOut := carryOut_keeps ih h
      carryOutBody := body_keeps ih h
      carryOutBuiltin := carryOutBuiltin_keeps ih h
      runSteps := runSteps_keeps ih }

/-! ### Contexts alone -/

/-- The regime that says nothing of code and values. -/
def Regime.ofContexts (context : Context → Prop)
    (entered : Context → Function → CallSite → Prop) (world : World → Prop) : Regime where
  context
  entered
  node _ _ := True
  place _ _ := True
  kind _ := True
  bound _ := True
  world
  faults := True

/-- Whether each step of evaluation keeps to the contexts and to what holds of the world. -/
structure ClosedContexts (context : Context → Prop)
    (entered : Context → Function → CallSite → Prop) (world : World → Prop) : Prop where
  lookAside : ∀ {c}, context c → context c.lookAside
  enters : ∀ {c name f id}, context c → Assoc.get? name c.registry = some f →
    (f.isBuiltin = false → c.mode = .preview → c.stack.outerCall? f.name = none) →
    entered (c.inCall f.name id) f (c.site f.name id)
  inside : ∀ {c f site}, entered c f site → context c
  inToplevel : ∀ {c f site toplevel}, entered c f site → context (c.inToplevel toplevel)
  report : ∀ {c executed id value}, context c →
    Keeps world True (fun _ => True) (Run.report c executed id value)
  enter : ∀ {c f site toplevel}, entered c f site →
    Keeps world True (fun _ => True) (Run.enter c toplevel)
  load : ∀ {c site args}, context c → Keeps world True (fun _ => True) (Run.load c site args)
  invoke : ∀ {c f site args}, entered c f site →
    Keeps world True (fun _ => True) (Run.invoke c f args)
  record : ∀ {c f site b args value}, entered c f site → f.implementation = .builtin b →
    f.previewability = .repeatable →
    Keeps world True (fun _ => True) (Run.record c site args value)
  body : ∀ {fuel c f site origin toplevel body args}, entered c f site →
    f.implementation = .written origin toplevel body →
    Keeps world True (fun _ => True) (eval fuel (c.inToplevel toplevel)
      (Fields.ofPairs ((f.parameters.map Parameter.name).zip args)) body) →
    Keeps world True (fun _ => True) (carryOutBody (fuel + 1) c f toplevel body site args)

variable {context : Context → Prop} {entered : Context → Function → CallSite → Prop}
  {world : World → Prop}

/-- Conditions on contexts that are closed under evaluation are a lawful regime. -/
theorem ClosedContexts.isLawful (h : ClosedContexts context entered world) :
  (Regime.ofContexts context entered world).IsLawful
  where
  toClosedValues := ClosedValues.trivial
  id _ := trivial
  pattern _ _ _ _ _ := trivial
  parameter _ _ _ := trivial
  named _ := trivial
  lambda _ _ := trivial
  captured _ _ _ := trivial
  applied _ _ _ _ := trivial
  lookAside := h.lookAside
  enters hc _ := h.enters hc
  inside := h.inside
  inToplevel hentered _ := ⟨h.inToplevel hentered, fun _ _ => trivial⟩
  builtin _ _ _ _ := BuiltinStep.stays_trivial _
  report hc _ _ := h.report hc
  enter := h.enter
  load hc := (h.load hc).mono (fun hfaults => hfaults) fun _ _ _ _ => trivial
  invoke hentered _ := h.invoke hentered
  record hentered hb hrepeatable _ := h.record hentered hb hrepeatable
  body hentered hbody _ := h.body hentered hbody

/-- Evaluation in a context of the regime keeps what holds of the world. -/
theorem ClosedContexts.eval (h : ClosedContexts context entered world) (hc : context c)
    (e : Expr) :
  Keeps world True (fun _ => True) (Interpreter.eval fuel c scope e)
  := (h.isLawful.kept fuel).eval ⟨hc, fun _ _ => trivial, fun _ _ => trivial⟩

end Interpreter

end LiveExpr
