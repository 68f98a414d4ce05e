import LiveExpr.Proofs.Kinds
import LiveExpr.Proofs.Reached
import LiveExpr.Proofs.Reports
import LiveExpr.Proofs.Weight

/-!
# Code that calls the library

Code without lambdas that names functions of the standard library only, with no function
values in scope: whatever it does with values, the only functions that there are belong to
the library, so that no other code is run and no fault gets out. A store in memory shows
what its nodes were last reported with. Main statement: `library_isLawful`.
-/

namespace LiveExpr

/-- Whether a name stands for nothing but a function of the standard library. -/
def Registry.IsLibrary (registry : Registry) (name : FunctionName) : Prop :=
  ∀ f, Assoc.get? name registry = some f → f ∈ Stdlib.contents

/-- Whether an expression is no lambda and names functions of the standard library only. -/
def Expr.CallsLibrary (registry : Registry) : Expr → Prop
  | .lambda _ _ _ => False
  | .functionValue _ name => registry.IsLibrary name
  | _ => True

/-- Whether only functions of the standard library come of applying a value. -/
def Value.CallsLibrary (registry : Registry) (value : Value) : Prop :=
  ∀ f, value.callable? = some f → ∃ name, f = .named name ∧ registry.IsLibrary name

variable {registry : Registry}

theorem Value.callsLibrary_of_callable? {value : Value} (h : value.callable? = none) :
  value.CallsLibrary registry
  := by
  intro f hf
  cases h.symm.trans hf

theorem Value.callsLibrary_named {name : FunctionName} :
  (Value.named name).CallsLibrary registry ↔ registry.IsLibrary name
  := by
  constructor
  · intro h
    obtain ⟨_, ⟨⟩, hname⟩ := h _ rfl
    exact hname
  · rintro h _ ⟨⟩
    exact ⟨name, rfl, h⟩

theorem Value.not_callsLibrary_lambda {parameters : List (NodeId × String)} {scope : Scope}
    {body : Expr} :
  ¬ (Value.lambda parameters scope body).CallsLibrary registry
  := by
  intro h
  obtain ⟨_, ⟨⟩, -⟩ := h _ rfl

theorem Value.allowsBuilding_callsLibrary :
  AllowsBuilding (CallsLibrary registry)
  where
  plain _ _ hcallable := callsLibrary_of_callable? hcallable
  list _ := callsLibrary_of_callable? rfl
  record _ := callsLibrary_of_callable? rfl
  just _ := callsLibrary_of_callable? rfl
  ok _ := callsLibrary_of_callable? rfl
  error _ := callsLibrary_of_callable? rfl
  rail _ := callsLibrary_of_callable? rfl
  option _ _ := callsLibrary_of_callable? rfl
  insert _ _ := callsLibrary_of_callable? rfl

/-! ### Live values -/

/-- Whether a store in memory shows what nodes were last reported with. -/
def World.Shows (w : World) : Prop :=
  ∃ content, w.store = .memory content
    ∧ ∀ id, Assoc.get? id content.live = Assoc.get? id w.reported

theorem World.shows_fresh (now : Timestamp) :
  (World.fresh now).Shows
  := ⟨.empty, rfl, fun _ => rfl⟩

namespace World.Shows

variable {w w' : World}

theorem isMemory (h : w.Shows) :
  w.store.IsMemory
  := by
  obtain ⟨content, hstore, -⟩ := h
  exact ⟨content, hstore⟩

/-- A change that leaves what was reported and the live values alone. -/
theorem unreported (h : w.Shows) (hreported : w'.reported = w.reported)
    (hstore : ∀ content, w.store = .memory content →
      ∃ content', w'.store = .memory content' ∧ content'.live = content.live) :
  w'.Shows
  := by
  obtain ⟨content, hcontent, hlive⟩ := h
  obtain ⟨content', hcontent', hsame⟩ := hstore content hcontent
  refine ⟨content', hcontent', fun id => ?_⟩
  rw [hsame, hreported, hlive]

end World.Shows

namespace Run

variable {c : Context} {site : CallSite} {args : List Value}

theorem report_shows {executed : Bool} {id : NodeId} {value : Value} :
  Keeps World.Shows False (fun _ => True) (report c executed id value)
  := by
  apply Keeps.report
  · rintro w ⟨content, hstore, hlive⟩
    refine ⟨content.report executed id value, ?_, fun other => ?_⟩
    · simp only [hstore]
      rfl
    · change Assoc.get? other (Assoc.set id _ content.live)
        = Assoc.get? other ((id, _) :: w.reported)
      rw [Assoc.get?_set, Assoc.get?, hlive]
  · intro w hw hfails
    rw [hw.isMemory.report.failsAfter] at hfails
    cases hfails

theorem enter_shows {toplevel : ToplevelId} :
  Keeps World.Shows False (fun _ => True) (enter c toplevel)
  := by
  intro w hw
  refine ⟨hw.unreported rfl fun content hcontent => ?_, trivial⟩
  refine ⟨content.enter toplevel, ?_, ?_⟩
  · simp only [enter, hcontent]
    rfl
  · unfold Memory.enter
    split <;> rfl

theorem load_shows :
  Keeps World.Shows False (fun _ => True) (load c site args)
  := by
  apply Keeps.load trivial
  intro w hash hw
  exact ⟨hw.unreported rfl fun content hcontent => ⟨content, hcontent, rfl⟩, trivial⟩

theorem record_shows {value : Value} :
  Keeps World.Shows False (fun _ => True) (record c site args value)
  := by
  apply Keeps.record
  intro w hash hw
  refine hw.unreported rfl fun content hcontent => ⟨content.record site hash value, ?_, rfl⟩
  simp only [hcontent]
  rfl

theorem invoke_shows {f : Function} :
  Keeps World.Shows False (fun _ => True) (invoke c f args)
  := by
  intro w hw
  exact ⟨hw.unreported rfl fun content hcontent => ⟨content, hcontent, rfl⟩, trivial⟩

end Run

/-! ### The regime -/

namespace Interpreter

/-- The regime of an expression that calls the library. -/
def library (registry : Registry) (root : Expr) : Regime where
  context c := c.registry = registry
  entered c f _ := c.registry = registry ∧ f ∈ Stdlib.contents
  node _ node := node ∈ root.subterms ∧ node.CallsLibrary registry
  place _ _ := True
  kind := Value.Every (Value.CallsLibrary registry)
  bound := Value.Every (Value.CallsLibrary registry)
  world w := w.Shows ∧ w.Recalls fun _ => Value.Every (Value.CallsLibrary registry)
  faults := False

variable {root : Expr}

theorem library_isLawful :
  (library registry root).IsLawful
  where
  toClosedValues :=
    Value.allowsBuilding_callsLibrary.closedValues
      (fun _ => Value.callsLibrary_of_callable? rfl) fun _ => Value.callsLibrary_of_callable? rfl
  id _ := trivial
  pattern _ _ _ _ _ := trivial
  parameter _ _ _ := trivial
  named hnode := Value.every_of_isAtom rfl (Value.callsLibrary_named.mpr hnode.2)
  lambda hcode _ := hcode.self.2.elim
  captured hlambda := absurd hlambda.self Value.not_callsLibrary_lambda
  applied _ hlambda := absurd hlambda.self Value.not_callsLibrary_lambda
  lookAside hc := hc
  enters hc hname hf _ := ⟨hc, Value.callsLibrary_named.mp hname.self _ (hc ▸ hf)⟩
  inside hentered := hentered.1
  inToplevel hentered hbody := by
    obtain ⟨b, hb⟩ := Stdlib.exists_builtin_of_mem hentered.2
    cases hb.symm.trans hbody
  builtin hentered hb hargs hreal :=
    Value.allowsBuilding_callsLibrary.contents_stay hentered.2 hb hargs hreal
  report _ _ _ := (Run.report_shows.and Run.report_recalls).mono id fun _ _ => trivial
  enter _ := (Run.enter_shows.and Run.enter_recalls).mono id fun _ _ => trivial
  load _ := (Run.load_shows.and Run.load_recalls).mono id fun _ hfound => hfound.2
  invoke _ _ := (Run.invoke_shows.and Run.invoke_recalls).mono id fun _ _ => trivial
  record _ _ _ hvalue :=
    (Run.record_shows.and (Run.record_recalls hvalue)).mono id fun _ _ => trivial
  body hentered hbody := by
    obtain ⟨b, hb⟩ := Stdlib.exists_builtin_of_mem hentered.2
    cases hb.symm.trans hbody

/-- Where functions are applied and called, no code is evaluated. -/
theorem callsOf_values {activation : Activation} {fuel : Nat} {w : World}
    (ha : (library registry root).Admits activation) (hcode : activation.isCode = false) :
  ∀ t ∈ Frame.callsOf fuel w activation, t.activation.isCode = false
  := by
  have hsingle {activation : Activation} {w : World} (h : activation.isCode = false) :
      ∀ t ∈ [(⟨fuel, activation, w⟩ : Frame)], t.activation.isCode = false :=
    List.forall_mem_singleton.mpr h
  cases activation with
  | eval | lookAt | evalNode | evalArgs | evalItems | evalFields | evalCases => cases hcode
  | applyValue c id callee args position railUse =>
    rw [Frame.callsOf]
    split
    · exact hsingle rfl
    · exact List.forall_mem_nil _
  | applyCallable c id f args position railUse =>
    cases f with
    | named name => exact hsingle rfl
    | lambda parameters captured body =>
      obtain ⟨-, -, hlambda, -⟩ := ha
      exact absurd hlambda.self Value.not_callsLibrary_lambda
  | call c name id args position railUse =>
    rw [Frame.callsOf]
    split
    · exact List.forall_mem_nil _
    · split
      · exact List.forall_mem_nil _
      · split
        · exact List.forall_mem_nil _
        · split
          · exact List.forall_mem_nil _
          · exact hsingle rfl
  | carryOut c f id args =>
    rw [Frame.callsOf]
    split
    · exact hsingle rfl
    · split
      · exact List.forall_mem_nil _
      · split
        · exact List.forall_mem_nil _
        · exact hsingle rfl
  | carryOutBody c f toplevel body site args =>
    obtain ⟨⟨-, hf⟩, ⟨origin, hbody⟩, -⟩ := ha
    obtain ⟨b, hb⟩ := Stdlib.exists_builtin_of_mem hf
    cases hb.symm.trans hbody
  | carryOutBuiltin c f b site args =>
    intro t ht
    obtain ⟨recorded, w', -, ht⟩ := Frame.mem_after ht
    split at ht
    · cases ht
    · split at ht
      · cases ht
      · obtain ⟨known, w'', -, ht⟩ := Frame.mem_after ht
        exact hsingle rfl t ht
  | runSteps c caller step =>
    cases step with
    | finish | fail => exact List.forall_mem_nil _
    | apply f args position railUse next =>
      refine List.forall_mem_cons.mpr ⟨rfl, fun t ht => ?_⟩
      obtain ⟨value, w', -, ht⟩ := Frame.mem_after ht
      exact hsingle rfl t ht

end Interpreter

end LiveExpr
