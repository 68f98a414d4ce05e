import LiveExpr.Proofs.Reached
import LiveExpr.Proofs.Signatures

/-!
# Calls of the library

A call of a function of the standard library gives what its built-in ended with.  Runs record
results for functions that are written in the language and for repeatable built-ins only, so
that no recorded result stands in for a built-in of the library; and the check of the result
lets it pass.  Main statement: `signatures_honest`.
-/

namespace LiveExpr

/-! ### Registries with the library -/

namespace Registry

variable {registry : Registry} {fs : List Function}

/-- Whether functions are registered under their names, and the library among them. -/
structure HoldsLibrary (registry : Registry) : Prop where
  named : ∀ name f, Assoc.get? name registry = some f → f.name = name
  library : ∀ f ∈ Stdlib.contents, Assoc.get? f.name registry = some f

/-- Further functions do not hide a function of another name. -/
theorem get?_addAll_of_ne {name : FunctionName} (h : ∀ f ∈ fs, f.name ≠ name) :
  Assoc.get? name (registry.addAll fs) = Assoc.get? name registry
  := by
  induction fs generalizing registry with
  | nil => rfl
  | cons f fs ih =>
    obtain ⟨hf, hfs⟩ := List.forall_mem_cons.mp h
    change Assoc.get? name ((registry.add f).addAll fs) = _
    rw [ih hfs, add, Assoc.get?_set, if_neg hf]

/-- Of functions with different names, each is registered. -/
theorem get?_addAll_of_mem (hnames : (fs.map Function.name).Nodup) {f : Function}
    (hf : f ∈ fs) :
  Assoc.get? f.name (registry.addAll fs) = some f
  := by
  induction fs generalizing registry with
  | nil => cases hf
  | cons g fs ih =>
    obtain ⟨hg, hnames⟩ := List.nodup_cons.mp hnames
    rcases List.mem_cons.mp hf with rfl | hf
    · have hne : ∀ g ∈ fs, g.name ≠ f.name := by
        intro g hmem hname
        exact hg (hname ▸ List.mem_map_of_mem hmem)
      change Assoc.get? f.name ((registry.add f).addAll fs) = _
      rw [get?_addAll_of_ne hne, add, Assoc.get?_set, if_pos rfl]
    · exact ih hnames hf

/-- The standard library is held together with further functions that do not take a name
of it. -/
theorem holdsLibrary_addAll (h : ∀ f ∈ fs, ∀ g ∈ Stdlib.contents, f.name ≠ g.name) :
  (Stdlib.registry.addAll fs).HoldsLibrary
  where
  named _ _ hf := name_of_get?_addAll Stdlib.name_of_get? hf
  library g hg := by
    rw [get?_addAll_of_ne fun f hf => h f hf g hg]
    exact get?_addAll_of_mem (by decide) hg

end Registry

/-! ### Recorded results -/

/-- Whether runs may record results of a call: of the library's functions they do so for
repeatable ones only. -/
def CallSite.IsRecorded (site : CallSite) : Prop :=
  ∀ f ∈ Stdlib.contents, f.name = site.name → f.previewability = .repeatable

namespace Interpreter

open Run (Keeps)

variable {c : Context} {fuel : Nat} {f : Function} {b : Builtin} {site : CallSite}
  {args : List Value} {w w' : World}

/-- A context in a call of a function, where the library is at hand. -/
def IsCalling (c : Context) (f : Function) (site : CallSite) : Prop :=
  c.registry.HoldsLibrary ∧ site.name = f.name ∧ Assoc.get? f.name c.registry = some f

/-- A function of the library is called by its own name. -/
theorem IsCalling.eq_of_mem (h : IsCalling c f site) {g : Function} (hg : g ∈ Stdlib.contents)
    (hname : g.name = site.name) :
  g = f
  := by
  obtain ⟨hregistry, hsite, hf⟩ := h
  have hget := hregistry.library g hg
  rw [hname, hsite, hf] at hget
  exact (Option.some.inj hget).symm

theorem closedContexts_recorded :
  ClosedContexts (fun c => c.registry.HoldsLibrary) IsCalling
    (World.Recalls fun site _ => site.IsRecorded)
  where
  lookAside hc := hc
  enters {c name f id} hc hf _ := by
    refine ⟨hc, rfl, ?_⟩
    change Assoc.get? f.name c.registry = some f
    rw [hc.named name f hf, hf]
  inside hentered := hentered.1
  inToplevel hentered := hentered.1
  report _ := Run.report_recalls
  enter _ := Run.enter_recalls
  load _ := Run.load_recalls.mono (fun hfaults => hfaults) fun _ _ => trivial
  invoke _ := Run.invoke_recalls
  record hentered hb hrepeatable := by
    apply Run.record_recalls
    intro g hg hname
    rw [hentered.eq_of_mem hg hname]
    exact hrepeatable
  body {fuel c f site origin toplevel body args} hentered hbody heval := by
    have hsite : site.IsRecorded := by
      intro g hg hname
      obtain ⟨b, hb⟩ := Stdlib.exists_builtin_of_mem hg
      rw [hentered.eq_of_mem hg hname, hbody] at hb
      cases hb
    apply carryOutBody_keeps Run.enter_recalls
    · exact Run.load_recalls.mono (fun hfaults => hfaults) fun _ _ _ _ => trivial
    · exact fun _ _ => Run.record_recalls hsite
    · exact heval

/-- Whether a run may start with a function of the interpreter, where the library is at
hand. -/
def Activation.Starts : Activation → Prop
  | .eval c _ _ | .applyCallable c _ _ _ _ _ | .call c _ _ _ _ _ => c.registry.HoldsLibrary
  | _ => False

theorem Activation.Starts.admits {activation : Activation} (h : activation.Starts) :
  (Regime.ofContexts (fun c => c.registry.HoldsLibrary) IsCalling
    (World.Recalls fun site _ => site.IsRecorded)).Admits activation
  := by
  cases activation with
  | eval c scope e => exact ⟨h, fun _ _ => trivial, fun _ _ => trivial⟩
  | applyCallable c id f args position railUse =>
    exact ⟨h, trivial, trivial, fun _ _ => trivial⟩
  | call c name id args position railUse => exact ⟨h, trivial, trivial, fun _ _ => trivial⟩
  | _ => cases h

/-- A run that starts with the library at hand leaves results as runs record them. -/
theorem recalls_leaves {s : Frame} (hs : s.activation.Starts)
    (hw : s.world.Recalls fun site _ => site.IsRecorded) :
  s.leaves.Recalls fun site _ => site.IsRecorded
  := by
  obtain ⟨fuel, activation, w⟩ := s
  have hkept := closedContexts_recorded.isLawful.kept fuel
  have hadmits := hs.admits
  cases activation with
  | eval c scope e => exact (hkept.eval hadmits w hw).1
  | applyCallable c id f args position railUse => exact (hkept.applyCallable hadmits w hw).1
  | call c name id args position railUse => exact (hkept.call hadmits w hw).1
  | _ => cases hs

end Interpreter

open Interpreter

/-- Whether the recorded results of a store come from runs, and from nothing else. -/
inductive TraceStore.IsLeft : TraceStore → Prop where
  | empty {store : TraceStore} (h : ∀ site hash, store.load? site hash = none) :
    IsLeft store
  /-- A run was at this point. -/
  | during {s t : Frame} (hs : s.activation.Starts) (hstore : IsLeft s.world.store)
      (hreaches : s.Reaches t) :
    IsLeft t.world.store
  /-- A run is over. -/
  | after {s : Frame} (hs : s.activation.Starts) (hstore : IsLeft s.world.store) :
    IsLeft s.leaves.store
  | same {store other : TraceStore} (hstore : IsLeft store)
      (h : ∀ site hash, other.load? site hash = store.load? site hash) :
    IsLeft other

/-- Runs record results of the calls that they may. -/
theorem TraceStore.IsLeft.isRecorded {store : TraceStore} (h : store.IsLeft)
    {site : CallSite} {hash : String} {value : Value}
    (hfound : store.load? site hash = some value) :
  site.IsRecorded
  := by
  induction h generalizing site hash value with
  | empty hempty =>
    rw [hempty] at hfound
    cases hfound
  | @during s t hs _ hreaches ih =>
    have hw : s.world.Recalls fun site _ => site.IsRecorded := fun _ _ _ => ih
    exact (closedContexts_recorded.isLawful.reached hreaches hs.admits hw).2 _ _ _ hfound
  | @after s hs _ ih =>
    have hw : s.world.Recalls fun site _ => site.IsRecorded := fun _ _ _ => ih
    exact recalls_leaves hs hw _ _ _ hfound
  | same _ hsame ih => exact ih (hsame site hash ▸ hfound)

/-! ### Results of calls -/

namespace Interpreter

open Typing (unify unify_eq_nil_iff checkCall)

/-- A fake value is of every type. -/
theorem unify_of_isFake {types : TypeTable} {value : Value} (type : Ty)
    (h : value.isFake = true) :
  unify types value type = []
  := (unify_eq_nil_iff value type).mpr (.fake h)

theorem unify_builtinResult {types : TypeTable} {source : Source} {name : FunctionName}
    {type : Ty} {outcome : Except (Option String) (Except BuiltinError Value)}
    (h : ∀ result, outcome = .ok result → Stdlib.Gives type result) :
  unify types (builtinResult source name args outcome) type = []
  := by
  unfold builtinResult
  split
  · exact h _ rfl types
  · exact h _ rfl types
  · exact unify_of_isFake type rfl
  · exact unify_of_isFake type rfl
  · exact unify_of_isFake type rfl

/-- No result stands in for a built-in of the library. -/
theorem loadIf_library (hf : f ∈ Stdlib.contents) (hsite : site.name = f.name)
    (hstore : w.store.IsLeft) (mode : Mode) :
  ∃ w', Run.loadIf (mode.replaysResults && f.previewability != .repeatable) c site args w
    = (.done none, w')
  := by
  by_cases hrepeatable : f.previewability = .repeatable
  · refine ⟨w, ?_⟩
    rw [hrepeatable, bne_self_eq_false, Bool.and_false]
    rfl
  · have hnone : ∀ hash, w.store.load? site hash = none := by
      intro hash
      rw [Option.eq_none_iff_forall_ne_some]
      intro value hvalue
      exact hrepeatable (hstore.isRecorded hvalue f hf hsite.symm)
    obtain ⟨w', hrun, -⟩ := Run.loadIf_eq_none hnone
    exact ⟨w', hrun⟩

/-- What a built-in of the library gives is of its declared type, if no results are recorded
but those of runs. -/
theorem unify_carryOutBuiltin (hf : f ∈ Stdlib.contents) (hb : f.implementation = .builtin b)
    (hsite : site.name = f.name) (hstore : w.store.IsLeft) {value : Value}
    (hrun : carryOutBuiltin fuel c f b site args w = (.done value, w')) (types : TypeTable) :
  unify types value f.returnType = []
  := by
  cases fuel with
  | zero => cases hrun
  | succ fuel =>
    rw [carryOutBuiltin] at hrun
    obtain ⟨w₁, hload⟩ := loadIf_library hf hsite hstore c.mode
    rw [Run.bind_of_done hload] at hrun
    dsimp only at hrun
    split at hrun
    · cases hrun
      exact unify_of_isFake f.returnType rfl
    · obtain ⟨known, w₂, -, hrun⟩ := Run.bind_eq_done hrun
      obtain ⟨outcome, w₃, hcaught, hrun⟩ := Run.bind_eq_done hrun
      have hresult : unify types (builtinResult (c.source site.caller) f.name args outcome)
          f.returnType = [] := by
        apply unify_builtinResult
        rintro result rfl
        exact runSteps_ends (Stdlib.contents_give hf hb known args) (Run.of_caught hcaught)
      split at hrun
      · obtain ⟨_, w₄, -, hrun⟩ := Run.bind_eq_done hrun
        cases hrun
        exact hresult
      · cases hrun
        exact hresult

/-- A built-in is carried out, and its result checked. -/
theorem carryOut_builtin (hb : f.implementation = .builtin b) (id : NodeId) :
  carryOut (fuel + 1) c f id args
    = carryOutBuiltin fuel (c.inCall f.name id) f b (c.site f.name id) args
        >>= fun result => pure (checkedResult c.types (c.source id) f result)
  := by
  simp only [carryOut, hb]

/-- What a call hands on of the result of a function. -/
def handedOn (source : Source) (result : Value) : RailUse → Value
  | .rail => toRail source result
  | .noRail => result

/-- A call with real arguments of the right number carries out the function. -/
theorem call_real (hf : Assoc.get? f.name c.registry = some f)
    (hlen : args.length = f.parameters.length) (hreal : ∀ arg ∈ args, arg.isFake = false)
    (id : NodeId) (position : PipePosition) (railUse : RailUse) :
  call (fuel + 1) c f.name id args position railUse
    = carryOut fuel c f id args >>= fun result => pure (handedOn (c.source id) result railUse)
  := by
  have hrails : args.find? Value.isErrorRail = none := by
    rw [List.find?_eq_none]
    intro arg harg
    rw [Value.isErrorRail_of_isFake (hreal arg harg)]
    exact Bool.false_ne_true
  have hbad : args.find? (fun value => value.isIncomplete || value.isFailure) = none := by
    rw [List.find?_eq_none]
    intro arg harg
    have harg := hreal arg harg
    cases arg <;> simp_all [Value.isFake, Value.isIncomplete, Value.isFailure]
  rw [call, hrails, hf]
  dsimp only
  rw [if_neg (not_not.mpr hlen.symm), hbad]
  cases railUse <;> rfl

/-- A call with real arguments that gives a value had a result to hand on. -/
theorem exists_of_call (hb : f.implementation = .builtin b)
    (hf : Assoc.get? f.name c.registry = some f) (hlen : args.length = f.parameters.length)
    (hreal : ∀ arg ∈ args, arg.isFake = false) {id : NodeId} {position : PipePosition}
    {railUse : RailUse} {value : Value}
    (hrun : call fuel c f.name id args position railUse w = (.done value, w')) :
  ∃ n result, fuel = n + 2
    ∧ carryOutBuiltin n (c.inCall f.name id) f b (c.site f.name id) args w = (.done result, w')
    ∧ value = handedOn (c.source id) (checkedResult c.types (c.source id) f result) railUse
  := by
  obtain _ | _ | n := fuel
  · cases hrun
  · rw [call_real hf hlen hreal] at hrun
    cases hrun
  · rw [call_real hf hlen hreal, carryOut_builtin hb] at hrun
    obtain ⟨_, w₁, hcarry, hvalue⟩ := Run.bind_eq_done hrun
    obtain ⟨result, w₂, hbuiltin, hchecked⟩ := Run.bind_eq_done hcarry
    cases hvalue
    cases hchecked
    exact ⟨n, result, rfl, hbuiltin, rfl⟩

/-- The declared parameters of a function of the library take the real arguments that its
built-in takes; and a call with real arguments, if no results are recorded but those of runs,
gives what the built-in ended with, which is of the declared type, so that the check of the
result leaves it as it is. -/
theorem signatures_honest (hf : f ∈ Stdlib.contents) :
  ∃ b, f.implementation = .builtin b
    ∧ (∀ types known args, args.length = f.parameters.length →
        (∀ arg ∈ args, arg.isFake = false) → ∀ fuel c caller w,
          (checkCall types f.parameterTypes args = []
            ↔ (runSteps (fuel + 1) c caller (b.run known args) w).1
                ≠ .done (.error .wrongArguments)))
    ∧ ∀ c w id args position railUse fuel value w', c.registry.HoldsLibrary →
        w.store.IsLeft → args.length = f.parameters.length →
        (∀ arg ∈ args, arg.isFake = false) →
        call fuel c f.name id args position railUse w = (.done value, w') →
          ∃ n result, fuel = n + 2
            ∧ carryOutBuiltin n (c.inCall f.name id) f b (c.site f.name id) args w
                = (.done result, w')
            ∧ unify c.types result f.returnType = []
            ∧ carryOut (n + 1) c f id args w = (.done result, w')
            ∧ value = handedOn (c.source id) result railUse
  := by
  obtain ⟨b, hb⟩ := Stdlib.exists_builtin_of_mem hf
  refine ⟨b, hb, ?_, ?_⟩
  · intro types known args hlen hreal fuel c caller w
    exact Stdlib.checkCall_eq_nil_iff hf hb types known hlen hreal fuel c caller w
  · intro c w id args position railUse fuel value w' hc hstore hlen hreal hrun
    obtain ⟨n, result, rfl, hbuiltin, hvalue⟩ :=
      exists_of_call hb (hc.library f hf) hlen hreal hrun
    have htype := unify_carryOutBuiltin hf hb rfl hstore hbuiltin c.types
    have hchecked : checkedResult c.types (c.source id) f result = result := by
      rw [checkedResult, htype]
    rw [hchecked] at hvalue
    refine ⟨n, result, rfl, hbuiltin, htype, ?_, hvalue⟩
    rw [carryOut_builtin hb, Run.bind_of_done hbuiltin, hchecked]
    rfl

/-- A call that takes the time. -/
def timing : Frame :=
  ⟨9, .call (.start .real 0 0 Stdlib.registry []) (.stdlib "Date" "now" 0) 1 [] .notInPipe
    .noRail, .fresh ⟨0, 0⟩⟩

/-- After the time was taken, a preview looks a key up: the arguments and the result are as
declared. -/
theorem signatures_honest_getOption :
  ∃ f ∈ Stdlib.contents, f.name = .stdlib "Dict" "get" 2
    ∧ timing.leaves.store.IsLeft
    ∧ checkCall [] f.parameterTypes [.record [("a", .int 1)], .str "a"] = []
    ∧ ∃ result w', call 9 (.start .preview 0 0 Stdlib.registry []) f.name 2
          [.record [("a", .int 1)], .str "a"] .notInPipe .noRail timing.leaves
        = (.done result, w')
      ∧ unify [] result f.returnType = []
  := by
  let c : Context := .start .preview 0 0 Stdlib.registry []
  have hlibrary : Stdlib.registry.HoldsLibrary :=
    Registry.holdsLibrary_addAll (List.forall_mem_nil _)
  let f : Function := Stdlib.contents.get ⟨9, by decide⟩
  have hf : f ∈ Stdlib.contents := List.get_mem _ _
  have hreal : ∀ arg ∈ [Value.record [("a", .int 1)], .str "a"], arg.isFake = false := by
    simp [Value.isFake]
  have hstore : timing.leaves.store.IsLeft := .after hlibrary (.empty fun _ _ => rfl)
  obtain ⟨b, hb, htakes, hgives⟩ := signatures_honest hf
  have hchecked := (htakes [] ⟨⟨0, 0⟩, .nothing, 1⟩ _ rfl hreal 0 c 2 (.fresh ⟨0, 0⟩)).mpr (by
    cases hb
    intro hwrong
    cases hwrong)
  have hrun : call 9 c f.name 2 [.record [("a", .int 1)], .str "a"] .notInPipe .noRail
      timing.leaves = (.done (.just (.int 1)), _) := Prod.ext rfl rfl
  obtain ⟨_, result, -, -, htype, -, hvalue⟩ :=
    hgives c _ _ _ _ _ _ _ _ hlibrary hstore rfl hreal hrun
  obtain rfl : .just (.int 1) = result := hvalue
  exact ⟨f, hf, rfl, hstore, hchecked, _, _, hrun, htype⟩

end Interpreter

end LiveExpr
