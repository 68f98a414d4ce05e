import LiveExpr.Proofs.Unobserved

/-!
# Runs in step

Two runs that start in worlds which look alike to code that runs for real, and end in the
same way in worlds that look alike.  What is looked at in preview, reported or recorded on
either side does not put them out of step, as long as the built-ins that previews may run
are functions of their arguments and the time.  Main statements: `InStep.bind`, one run in
step after another, and `lookAt_keepsAlike`.
-/

namespace LiveExpr

/-! ### Worlds that look alike -/

/-- Whether functions are registered under their names, and the built-ins that previews
may run do not depend on how often they were called. -/
structure Registry.IsRepeatable (registry : Registry) : Prop where
  named : ∀ name f, Assoc.get? name registry = some f → f.name = name
  repeatable : ∀ name f b, Assoc.get? name registry = some f → f.implementation = .builtin b →
    f.previewability ≠ .impure →
      ∀ now sharing i j args, b.run ⟨now, sharing, i⟩ args = b.run ⟨now, sharing, j⟩ args

/-- The standard library stays repeatable with further functions, if those of them that are
built in and not impure are functions of their arguments and the time. -/
theorem Registry.isRepeatable_addAll {fs : List Function}
    (hfs : ∀ f ∈ fs, ∀ b, f.implementation = .builtin b → f.previewability ≠ .impure →
      ∀ now sharing i j args, b.run ⟨now, sharing, i⟩ args = b.run ⟨now, sharing, j⟩ args) :
  (Stdlib.registry.addAll fs).IsRepeatable
  where
  named _ _ hf := Registry.name_of_get?_addAll Stdlib.name_of_get? hf
  repeatable name f b hf hb hpure := by
    rcases Stdlib.mem_of_get?_addAll hf with hmem | hmem
    · exact hfs f hmem b hb hpure
    · exact Stdlib.run_eq_of_mem hmem hb

/-- Whether two worlds look alike to code that runs for real: they show the same time, no
report makes their stores fail, impure functions were called equally often, and as many
built-ins were carried out for real. -/
structure World.Alike (registry : Registry) (w w' : World) : Prop where
  now : w.now = w'.now
  reliable : w.store.IsReliable
  reliable' : w'.store.IsReliable
  calls : ∀ name f, Assoc.get? name registry = some f → f.previewability = .impure →
    Assoc.get? name w.calls = Assoc.get? name w'.calls
  turns : w.turns .real = w'.turns .real

namespace World.Alike

variable {registry : Registry} {w w' w'' : World}

theorem refl (h : w.store.IsReliable) :
  w.Alike registry w
  where
  now := rfl
  reliable := h
  reliable' := h
  calls _ _ _ _ := rfl
  turns := rfl

theorem symm (h : w.Alike registry w') :
  w'.Alike registry w
  where
  now := h.now.symm
  reliable := h.reliable'
  reliable' := h.reliable
  calls name f hf himpure := (h.calls name f hf himpure).symm
  turns := h.turns.symm

/-- What is stored and logged does not matter. -/
theorem of_same (h : w.Alike registry w') (hnow : w''.now = w.now)
    (hcalls : w''.calls = w.calls) (hturns : w''.turns = w.turns)
    (hstore : w''.store.IsReliable) :
  w''.Alike registry w'
  where
  now := hnow.trans h.now
  reliable := hstore
  reliable' := h.reliable'
  calls name f hf himpure := by
    rw [hcalls]
    exact h.calls name f hf himpure
  turns := (congrFun hturns .real).trans h.turns

end World.Alike

namespace Run

variable {α β : Type}

/-! ### Runs in step -/

/-- Whether two runs, from worlds that are alike, end in the same way in worlds that are
alike, if the fuel of both suffices. -/
def InStep (alike : World → World → Prop) (run run' : Run α) : Prop :=
  ∀ w w', alike w w' → (run w).1 = .outOfFuel ∨ (run' w').1 = .outOfFuel
    ∨ (run w).1 = (run' w').1 ∧ alike (run w).2 (run' w').2

variable {alike : World → World → Prop} {run run' : Run α} {next next' : α → Run β}
  {kind : α → Prop}

theorem InStep.done {value : α} :
  InStep alike (pure value) (pure value)
  := fun _ _ hw => .inr (.inr ⟨rfl, hw⟩)

theorem InStep.fault {reason : Option String} :
  InStep alike (fault reason : Run α) (fault reason)
  := fun _ _ hw => .inr (.inr ⟨rfl, hw⟩)

theorem InStep.outOfFuel :
  InStep alike outOfFuel run
  := fun _ _ _ => .inl rfl

theorem InStep.bind (hrun : InStep alike run run')
    (hnext : ∀ value, InStep alike (next value) (next' value)) :
  InStep alike (run >>= next) (run' >>= next')
  := by
  intro w w' hw
  have h := hrun w w' hw
  change (andThen run next w).1 = _ ∨ (andThen run' next' w').1 = _
    ∨ (andThen run next w).1 = (andThen run' next' w').1
      ∧ alike (andThen run next w).2 (andThen run' next' w').2
  rw [andThen, andThen]
  generalize run w = r at h
  generalize run' w' = r' at h
  obtain ⟨outcome, w₁⟩ := r
  obtain ⟨outcome', w₁'⟩ := r'
  rcases h with rfl | rfl | ⟨rfl, hw₁⟩
  · exact .inl rfl
  · exact .inr (.inl rfl)
  · cases outcome with
    | done value => exact hnext value w₁ w₁' hw₁
    | fault reason => exact .inr (.inr ⟨rfl, hw₁⟩)
    | outOfFuel => exact .inl rfl

theorem InStep.caught (hrun : InStep alike run run') :
  InStep alike (caught run) (caught run')
  := by
  intro w w' hw
  have h := hrun w w' hw
  rw [Run.caught, Run.caught]
  generalize run w = r at h
  generalize run' w' = r' at h
  obtain ⟨outcome, w₁⟩ := r
  obtain ⟨outcome', w₁'⟩ := r'
  rcases h with rfl | rfl | ⟨rfl, hw₁⟩
  · exact .inl rfl
  · exact .inr (.inl rfl)
  · cases outcome with
    | done value => exact .inr (.inr ⟨rfl, hw₁⟩)
    | fault reason => exact .inr (.inr ⟨rfl, hw₁⟩)
    | outOfFuel => exact .inl rfl

/-- Whether a run leaves the world alike to whatever it was alike to, on either side, and
does not fault. -/
structure KeepsAlike (alike : World → World → Prop) (kind : α → Prop) (run : Run α) :
    Prop where
  left : ∀ w', Keeps (alike · w') False kind run
  right : ∀ w, Keeps (alike w ·) False kind run

/-- Where likeness is symmetric, one side is enough. -/
theorem KeepsAlike.of_left (hsymm : ∀ {w w'}, alike w w' → alike w' w)
    (h : ∀ w', Keeps (alike · w') False kind run) :
  KeepsAlike alike kind run
  where
  left := h
  right w w' hw :=
    have hkept := h w w' (hsymm hw)
    ⟨hsymm hkept.1, hkept.2⟩

/-- Before runs in step, both sides may do what leaves their worlds alike. -/
theorem InStep.skip {α' : Type} {run' : Run α'} {next' : α' → Run β} {kind' : α' → Prop}
    (hrun : KeepsAlike alike kind run) (hrun' : KeepsAlike alike kind' run')
    (hnext : ∀ value value', kind value → kind' value' →
      InStep alike (next value) (next' value')) :
  InStep alike (run >>= next) (run' >>= next')
  := by
  intro w w' hw
  change (andThen run next w).1 = _ ∨ (andThen run' next' w').1 = _
    ∨ (andThen run next w).1 = (andThen run' next' w').1
      ∧ alike (andThen run next w).2 (andThen run' next' w').2
  obtain ⟨hw₁, hmeets⟩ := hrun.left w' w hw
  obtain ⟨hw₁', hmeets'⟩ := hrun'.right (run w).2 w' hw₁
  rw [andThen, andThen]
  generalize run w = r at hw₁ hw₁' hmeets
  generalize run' w' = r' at hw₁' hmeets'
  obtain ⟨outcome, w₁⟩ := r
  obtain ⟨outcome', w₁'⟩ := r'
  cases outcome with
  | done value =>
    cases outcome' with
    | done value' => exact hnext value value' hmeets hmeets' w₁ w₁' hw₁'
    | fault reason => cases hmeets'
    | outOfFuel => exact .inr (.inl rfl)
  | fault reason => cases hmeets
  | outOfFuel => exact .inl rfl

/-- Runs that can only have one value are in step if they leave their worlds alike. -/
theorem InStep.ofKeepsAlike {value : α} (hrun : KeepsAlike alike (· = value) run)
    (hrun' : KeepsAlike alike (· = value) run') :
  InStep alike run run'
  := by
  intro w w' hw
  obtain ⟨hw₁, hmeets⟩ := hrun.left w' w hw
  obtain ⟨hw₁', hmeets'⟩ := hrun'.right (run w).2 w' hw₁
  generalize run w = r at hw₁' hmeets
  generalize run' w' = r' at hw₁' hmeets'
  obtain ⟨outcome, w₁⟩ := r
  obtain ⟨outcome', w₁'⟩ := r'
  cases outcome with
  | done found =>
    cases outcome' with
    | done found' =>
      cases hmeets
      cases hmeets'
      exact .inr (.inr ⟨rfl, hw₁'⟩)
    | fault reason => cases hmeets'
    | outOfFuel => exact .inr (.inl rfl)
  | fault reason => cases hmeets
  | outOfFuel => exact .inl rfl

/-! ### Reports and results -/

variable {registry : Registry} {c : Context} {site : CallSite} {args : List Value}

theorem report_keepsAlike {executed : Bool} {id : NodeId} {value : Value} :
  KeepsAlike (World.Alike registry) (fun _ => True) (report c executed id value)
  := by
  apply KeepsAlike.of_left .symm
  intro w'
  apply Keeps.report
  · intro w hw
    exact hw.of_same rfl rfl rfl hw.reliable.report
  · intro w hw hfails
    rw [hw.reliable.report id] at hfails
    cases hfails

theorem enter_keepsAlike {toplevel : ToplevelId} :
  KeepsAlike (World.Alike registry) (fun _ => True) (enter c toplevel)
  := by
  apply KeepsAlike.of_left .symm
  intro w' w hw
  exact ⟨hw.of_same rfl rfl rfl hw.reliable.enter, trivial⟩

theorem load_keepsAlike :
  KeepsAlike (World.Alike registry) (fun _ => True) (load c site args)
  := by
  apply KeepsAlike.of_left .symm
  intro w'
  apply Keeps.load trivial
  intro w hash hw
  exact ⟨hw.of_same rfl rfl rfl hw.reliable, trivial⟩

theorem record_keepsAlike {value : Value} :
  KeepsAlike (World.Alike registry) (fun _ => True) (record c site args value)
  := by
  apply KeepsAlike.of_left .symm
  intro w'
  apply Keeps.record
  intro w hash hw
  exact hw.of_same rfl rfl rfl hw.reliable.record

/-- A call in preview of a function that is not impure is not counted. -/
theorem invoke_keepsAlike {f : Function} (hf : Assoc.get? f.name registry = some f)
    (hpure : f.previewability ≠ .impure) (hmode : c.mode = .preview) :
  KeepsAlike (World.Alike registry) (fun _ => True) (invoke c f args)
  := by
  apply KeepsAlike.of_left .symm
  intro w' w hw
  refine ⟨⟨hw.now, hw.reliable, hw.reliable', ?_, ?_⟩, trivial⟩
  · intro name g hg himpure
    rw [invoke, Assoc.get?_set]
    split
    · next hname =>
      rw [hname] at hf
      obtain rfl := Option.some.inj (hf.symm.trans hg)
      exact absurd himpure hpure
    · exact hw.calls name g hg himpure
  · rw [invoke, hmode]
    exact hw.turns

/-- What a built-in may know in worlds that are alike is the same, except for the number of
its calls if it is not impure. -/
theorem InStep.invoke {f : Function} (hf : Assoc.get? f.name registry = some f)
    (hmode : c.mode = .real) {next next' : BuiltinContext → Run β}
    (hnext : ∀ known known', known.now = known'.now → known.sharing = known'.sharing →
      (f.previewability = .impure → known.calls = known'.calls) →
      InStep (World.Alike registry) (next known) (next' known')) :
  InStep (World.Alike registry) (invoke c f args >>= next) (invoke c f args >>= next')
  := by
  intro w w' hw
  have hcalls (himpure : f.previewability = .impure) :
      (Assoc.get? f.name w.calls).getD 0 + 1 = (Assoc.get? f.name w'.calls).getD 0 + 1 := by
    rw [hw.calls f.name f hf himpure]
  have hw₁ : World.Alike registry (Run.invoke c f args w).2 (Run.invoke c f args w').2 := by
    refine ⟨hw.now, hw.reliable, hw.reliable', ?_, ?_⟩
    · intro name g hg himpure
      rw [Run.invoke, Run.invoke, Assoc.get?_set, Assoc.get?_set]
      split
      · next hname =>
        rw [hname] at hf
        obtain rfl := Option.some.inj (hf.symm.trans hg)
        rw [hcalls himpure]
      · exact hw.calls name g hg himpure
    · rw [Run.invoke, Run.invoke, hmode]
      exact congrArg (· + 1) hw.turns
  have hsharing : c.sharing c.mode (w.turns c.mode) = c.sharing c.mode (w'.turns c.mode) := by
    rw [hmode, hw.turns]
  exact hnext ⟨w.now, _, _⟩ ⟨w'.now, _, _⟩ hw.now hsharing hcalls _ _ hw₁

end Run

/-! ### Previews -/

namespace Interpreter

open Run (KeepsAlike)

variable {registry : Registry} {c : Context} {scope : Scope} {e : Expr}

/-- The regime of previews among the functions of a registry, in worlds that are alike to a
given one. -/
def aside (registry : Registry) (w' : World) : Regime where
  context c := c.mode = .preview ∧ c.registry = registry
  entered c f _ := (c.mode = .preview ∧ c.registry = registry)
    ∧ Assoc.get? f.name registry = some f
  node _ _ := True
  place _ _ := True
  kind _ := True
  bound _ := True
  world w := w.Alike registry w'
  faults := False

theorem aside_isLawful (hregistry : registry.IsRepeatable) (w' : World) :
  (aside registry w').IsLawful
  where
  toClosedValues := ClosedValues.trivial
  id _ := trivial
  pattern _ _ _ _ _ := trivial
  parameter _ _ _ := trivial
  named _ := trivial
  lambda _ _ := trivial
  captured _ _ _ := trivial
  applied _ _ _ _ := trivial
  lookAside hc := ⟨rfl, hc.2⟩
  enters {c name f id} hc _ hf _ := by
    obtain ⟨hmode, rfl⟩ := hc
    refine ⟨⟨hmode, rfl⟩, ?_⟩
    rw [hregistry.named name f hf]
    exact hf
  inside hentered := hentered.1
  inToplevel hentered _ := ⟨hentered.1, fun _ _ => trivial⟩
  builtin _ _ _ _ := BuiltinStep.stays_trivial _
  report _ _ _ := Run.report_keepsAlike.left w'
  enter _ := Run.enter_keepsAlike.left w'
  load _ := (Run.load_keepsAlike.left w').mono (fun h => h) fun _ _ _ _ => trivial
  invoke hentered himpure := by
    apply (Run.invoke_keepsAlike hentered.2 ?_ hentered.1.1).left w'
    intro hf
    have hreal := himpure hf
    rw [hentered.1.1] at hreal
    cases hreal
  record _ _ _ _ := Run.record_keepsAlike.left w'
  body hentered _ _ heval := by
    apply carryOutBody_keeps (Run.enter_keepsAlike.left w')
    · exact (Run.load_keepsAlike.left w').mono (fun h => h) fun _ _ _ _ => trivial
    · exact fun _ _ => Run.record_keepsAlike.left w'
    · exact heval.mono (fun h => h) fun _ _ => trivial

/-- Whatever is looked at in preview leaves the world alike. -/
theorem lookAt_keepsAlike (hregistry : c.registry.IsRepeatable) (fuel : Nat) :
  KeepsAlike (World.Alike c.registry) (fun _ => True) (lookAt fuel c scope e)
  := by
  apply KeepsAlike.of_left .symm
  intro w'
  cases fuel with
  | zero => exact Run.Keeps.outOfFuel
  | succ fuel =>
    rw [lookAt]
    have hadmits : (aside c.registry w').Admits (.eval c.lookAside scope e) :=
      ⟨⟨rfl, rfl⟩, fun _ _ => trivial, fun _ _ => trivial⟩
    apply Run.Keeps.bind (((aside_isLawful hregistry w').kept fuel).eval hadmits)
    intro _ _
    exact Run.Keeps.done trivial

theorem reportPattern_keepsAlike {executed : Bool} {reports : List (NodeId × Value)} :
  KeepsAlike (World.Alike registry) (fun _ => True) (reportPattern c executed reports)
  := by
  apply KeepsAlike.of_left .symm
  intro w'
  exact reportPattern_keeps_of_report fun _ _ => Run.report_keepsAlike.left w'

/-- The cases after the one that is taken leave the world alike. -/
theorem evalCases_keepsAlike (hregistry : c.registry.IsRepeatable) (fuel : Nat)
    {value result : Value} (cases : List (Pattern × Expr)) :
  KeepsAlike (World.Alike c.registry) (· = some result)
    (evalCases fuel c scope value cases (some result))
  := by
  apply KeepsAlike.of_left .symm
  intro w'
  apply evalCases_keeps_chosen
  · exact fun fuel _ _ => (lookAt_keepsAlike hregistry fuel).left w'
  · exact fun _ _ => Run.report_keepsAlike.left w'

end Interpreter

end LiveExpr
