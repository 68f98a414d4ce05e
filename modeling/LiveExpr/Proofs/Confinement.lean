import LiveExpr.Proofs.Steps
import LiveExpr.Proofs.Unobserved

/-!
# Previews are confined

What happens during a run happens in the context of a frame that the run reaches, and a
context is handed on with its mode and its path, or made one for looking aside. So a
preview carries out no impure built-in, and neither does a look at code that is not run,
however deep. Main statement: `Frame.isConfined`.
-/

namespace LiveExpr

/-- Whether an event may happen in a context: on the path of execution a node may be
reported as executed, and an impure built-in is carried out for real. -/
def Event.IsAllowed (c : Context) : Event → Prop
  | .report executed _ _ => executed = true → c.onPath = true
  | .invoke f _ => f.previewability = .impure → c.mode.allowsImpureCalls = true
  | .enter _ | .load _ _ _ | .record _ _ _ _ => True

namespace Context

/-- Whether code is only looked at. -/
def IsAside (c : Context) : Prop :=
  c.mode = .preview ∧ c.onPath = false

/-- What is looked at is aside. -/
theorem isAside_lookAside (c : Context) :
  c.lookAside.IsAside
  := ⟨rfl, rfl⟩

/-- A preview stays a preview. -/
theorem Descends.mode {c c' : Context} (h : c.Descends c') (hc : c.mode = .preview) :
  c'.mode = .preview
  := by
  cases h with
  | same | called | moved => exact hc
  | aside => rfl

/-- What is looked at aside stays so. -/
theorem Descends.isAside {c c' : Context} (h : c.Descends c') (hc : c.IsAside) :
  c'.IsAside
  := by
  cases h with
  | same | called | moved => exact hc
  | aside => exact c.isAside_lookAside

end Context

/-- No impure built-in is carried out in preview. -/
theorem Event.IsAllowed.impureCall? {c : Context} {event : Event} (h : event.IsAllowed c)
    (hc : c.mode = .preview) :
  event.impureCall? = none
  := by
  cases event with
  | invoke f args =>
    rw [Event.impureCall?, if_neg]
    intro hf
    have hreal := h hf
    rw [hc] at hreal
    cases hreal
  | _ => rfl

/-! ### Events of runs -/

namespace Run

variable {α β : Type} {seen : Context → Prop} {c : Context} {w : World}

/-- Whether a run only adds events that are allowed, in contexts that are seen. -/
def IsAccounted (seen : Context → Prop) (run : Run α) (w : World) : Prop :=
  ∃ events, (run w).2.log = events ++ w.log
    ∧ ∀ entry ∈ events, seen entry.1 ∧ entry.2.IsAllowed entry.1

theorem IsAccounted.done {value : α} :
  IsAccounted seen (pure value) w
  := ⟨[], rfl, List.forall_mem_nil _⟩

theorem IsAccounted.outOfFuel :
  IsAccounted seen (outOfFuel : Run α) w
  := ⟨[], rfl, List.forall_mem_nil _⟩

theorem IsAccounted.fault {reason : Option String} :
  IsAccounted seen (fault reason : Run α) w
  := ⟨[], rfl, List.forall_mem_nil _⟩

/-- Runs that add what is allowed one after another add it together. -/
theorem IsAccounted.bind {run : Run α} {next : α → Run β} (hrun : IsAccounted seen run w)
    (hnext : ∀ value w', run w = (.done value, w') → IsAccounted seen (next value) w') :
  IsAccounted seen (run >>= next) w
  := by
  obtain ⟨events, hlog, hevents⟩ := hrun
  change ∃ events, (andThen run next w).2.log = _ ∧ _
  rw [andThen]
  generalize hr : run w = r at hlog
  obtain ⟨outcome, w'⟩ := r
  cases outcome with
  | done value =>
    obtain ⟨later, hlog', hlater⟩ := hnext value w' hr
    use later ++ events
    constructor
    · rw [hlog', hlog, List.append_assoc]
    · exact List.forall_mem_append.mpr ⟨hlater, hevents⟩
  | fault reason => exact ⟨events, hlog, hevents⟩
  | outOfFuel => exact ⟨events, hlog, hevents⟩

theorem IsAccounted.caught {run : Run α} (h : IsAccounted seen run w) :
  IsAccounted seen (caught run) w
  := by
  obtain ⟨events, hlog, hevents⟩ := h
  use events
  rw [Run.caught]
  generalize run w = r at hlog
  obtain ⟨_ | _ | _, w'⟩ := r <;> exact ⟨hlog, hevents⟩

/-- A report on the path of execution, or of what is not executed, is allowed. -/
theorem IsAccounted.report {executed : Bool} {id : NodeId} {value : Value} (hc : seen c)
    (hexecuted : executed = true → c.onPath = true) :
  IsAccounted seen (report c executed id value) w
  := by
  use [(c, .report executed id value)]
  constructor
  · rw [Run.report]
    split <;> rfl
  · exact List.forall_mem_singleton.mpr ⟨hc, hexecuted⟩

theorem IsAccounted.enter {toplevel : ToplevelId} (hc : seen c) :
  IsAccounted seen (enter c toplevel) w
  := ⟨[(c, .enter toplevel)], rfl, List.forall_mem_singleton.mpr ⟨hc, trivial⟩⟩

theorem IsAccounted.load {site : CallSite} {args : List Value} (hc : seen c) :
  IsAccounted seen (load c site args) w
  := by
  unfold Run.load
  cases c.argumentHash? args with
  | none => exact IsAccounted.done
  | some hash => exact ⟨[_], rfl, List.forall_mem_singleton.mpr ⟨hc, trivial⟩⟩

theorem IsAccounted.loadIf {wanted : Bool} {site : CallSite} {args : List Value}
    (hc : seen c) :
  IsAccounted seen (loadIf wanted c site args) w
  := by
  unfold Run.loadIf
  split
  · exact IsAccounted.load hc
  · exact IsAccounted.done

theorem IsAccounted.record {site : CallSite} {args : List Value} {value : Value}
    (hc : seen c) :
  IsAccounted seen (record c site args value) w
  := by
  unfold Run.record
  cases c.argumentHash? args with
  | none => exact IsAccounted.done
  | some hash => exact ⟨[_], rfl, List.forall_mem_singleton.mpr ⟨hc, trivial⟩⟩

/-- An impure built-in is carried out only where that is allowed. -/
theorem IsAccounted.invoke {f : Function} {args : List Value} (hc : seen c)
    (hf : f.previewability = .impure → c.mode.allowsImpureCalls = true) :
  IsAccounted seen (invoke c f args) w
  := ⟨[(c, .invoke f args)], rfl, List.forall_mem_singleton.mpr ⟨hc, hf⟩⟩

end Run

/-! ### Events of frames -/

namespace Interpreter

open Run (IsAccounted)

variable {seen : Context → Prop} {fuel : Nat} {c : Context} {scope : Scope} {w : World}

/-- The reports of a pattern are allowed. -/
theorem reportPattern_accounted {executed : Bool} (hc : seen c)
    (hexecuted : executed = true → c.onPath = true) (reports : List (NodeId × Value)) :
  IsAccounted seen (reportPattern c executed reports) w
  := by
  induction reports generalizing w with
  | nil => exact IsAccounted.done
  | cons report rest ih =>
    apply IsAccounted.bind (IsAccounted.report hc hexecuted)
    intro _ w' _
    exact ih

namespace Frame

/-- Whether a frame only adds events that are allowed, in contexts that are seen. -/
def IsAccounted (seen : Context → Prop) (s : Frame) : Prop :=
  ∃ events, s.leaves.log = events ++ s.world.log
    ∧ ∀ entry ∈ events, seen entry.1 ∧ entry.2.IsAllowed entry.1

variable {α : Type} {P : Frame → Prop}

/-- What holds of the calls that follow a run holds of those after its value. -/
theorem forall_of_after {run : Run α} {next : α → World → List Frame} {value : α}
    {w' : World} (h : ∀ t ∈ after run w next, P t) (hrun : run w = (.done value, w')) :
  ∀ t ∈ next value w', P t
  := by
  rw [after, hrun] at h
  exact h

/-- The events of a frame are those of its run. -/
theorem isAccounted_mk {activation : Activation} :
  IsAccounted seen ⟨fuel, activation, w⟩ ↔ Run.IsAccounted seen (activation.run fuel) w
  := by
  rw [IsAccounted, leaves, activation.leaves_eq]
  rfl

end Frame

/-- What a tree adds itself is in its own context. -/
theorem Step.accounted {c : Context} {α : Type} {step : Step c α} {w : World} (hc : seen c)
    (h : ∀ t ∈ step.calls fuel w, t.IsAccounted seen) :
  IsAccounted seen (step.run fuel) w
  := by
  induction step generalizing w with
  | done value => exact IsAccounted.done
  | fault reason => exact IsAccounted.fault
  | call activation next ih =>
    obtain ⟨hcall, hafter⟩ := List.forall_mem_cons.mp h
    apply IsAccounted.bind (Frame.isAccounted_mk.mp hcall)
    intro result w' hrun
    exact ih result (Frame.forall_of_after hafter hrun)
  | attempt activation next ih =>
    obtain ⟨hcall, hafter⟩ := List.forall_mem_cons.mp h
    apply IsAccounted.bind (IsAccounted.caught (Frame.isAccounted_mk.mp hcall))
    intro result w' hrun
    exact ih result (Frame.forall_of_after hafter hrun)
  | report executed hexecuted reports next ih =>
    apply IsAccounted.bind (reportPattern_accounted hc hexecuted _)
    intro _ w' hrun
    exact ih (Frame.forall_of_after h hrun)
  | enter toplevel next ih =>
    apply IsAccounted.bind (IsAccounted.enter hc)
    intro _ w' hrun
    exact ih (Frame.forall_of_after h hrun)
  | load wanted site args next ih =>
    apply IsAccounted.bind (IsAccounted.loadIf hc)
    intro recorded w' hrun
    exact ih recorded (Frame.forall_of_after h hrun)
  | record site args value next ih =>
    apply IsAccounted.bind (IsAccounted.record hc)
    intro _ w' hrun
    exact ih (Frame.forall_of_after h hrun)
  | invoke f args hallowed next ih =>
    apply IsAccounted.bind (IsAccounted.invoke hc hallowed)
    intro known w' hrun
    exact ih known (Frame.forall_of_after h hrun)

namespace Frame

/-- What a frame adds itself is in its own context. -/
theorem isAccounted_of_calls (s : Frame) (hs : seen s.context)
    (h : ∀ t ∈ s.calls, t.IsAccounted seen) :
  s.IsAccounted seen
  := by
  obtain ⟨fuel, activation, w⟩ := s
  cases fuel with
  | zero =>
    rw [isAccounted_mk, activation.run_zero]
    exact IsAccounted.outOfFuel
  | succ fuel =>
    rw [isAccounted_mk, activation.run_succ]
    rw [calls, callsOf_eq] at h
    exact Step.accounted hs h

/-- What happens during a frame happens in the contexts that it reaches. -/
theorem isAccounted {s : Frame} (h : ∀ t, s.Reaches t → seen t.context) :
  s.IsAccounted seen
  := by
  obtain ⟨fuel, activation, w⟩ := s
  induction fuel generalizing activation w with
  | zero => exact isAccounted_of_calls _ (h _ (.refl _)) (List.forall_mem_nil _)
  | succ fuel ih =>
    apply isAccounted_of_calls _ (h _ (.refl _))
    intro t ht
    obtain ⟨hfuel, -⟩ := descends_of_mem_calls ht
    obtain ⟨fuel', activation', w'⟩ := t
    obtain rfl := Nat.succ.inj hfuel
    apply ih
    intro u hu
    exact h u (.step ht hu)

/-- A run in preview carries out no impure built-in. During any run, whatever a look at
code that is not run reaches is in preview and off the path of execution; so are the
events of such a look, which reports no node as executed and carries out no impure
built-in. -/
theorem isConfined (s : Frame) :
  (s.context.mode = .preview →
      ∃ events, s.leaves.log = events ++ s.world.log
        ∧ ∀ entry ∈ events, entry.2.impureCall? = none)
    ∧ ∀ t c scope e, s.Reaches t → t.activation = .lookAt c scope e →
      (∀ u, t.Reaches u → u.context.mode = .preview ∧ u.context.onPath = false)
        ∧ ∃ events, t.leaves.log = events ++ t.world.log
          ∧ ∀ entry ∈ events, entry.1.mode = .preview ∧ entry.1.onPath = false
            ∧ entry.2.impureCall? = none
            ∧ ∀ executed id value, entry.2 = .report executed id value → executed = false
  := by
  constructor
  · intro hs
    have hseen : ∀ t, s.Reaches t → t.context.mode = .preview :=
      fun t ht => ht.handsDown Context.Descends.mode hs
    have hs : s.IsAccounted fun c => c.mode = .preview := isAccounted hseen
    obtain ⟨events, hlog, hevents⟩ := hs
    use events, hlog
    intro entry hentry
    obtain ⟨hmode, hallowed⟩ := hevents entry hentry
    exact hallowed.impureCall? hmode
  · intro t c scope e _ ht
    have haside : t.context.IsAside := by
      change t.activation.context.IsAside
      rw [ht]
      exact c.isAside_lookAside
    have hseen : ∀ u, t.Reaches u → u.context.IsAside :=
      fun u hu => hu.handsDown Context.Descends.isAside haside
    use hseen
    obtain ⟨events, hlog, hevents⟩ := isAccounted hseen
    use events, hlog
    intro entry hentry
    obtain ⟨⟨hmode, hpath⟩, hallowed⟩ := hevents entry hentry
    use hmode, hpath, hallowed.impureCall? hmode
    intro executed id value hevent
    rw [hevent] at hallowed
    cases executed with
    | false => rfl
    | true =>
      have honPath := hallowed rfl
      rw [hpath] at honPath
      cases honPath

/-- An email is sent for real while the branch that would send another is looked at. -/
theorem isConfined_sendEither :
  ∃ s t : Frame, s.context.mode = .real ∧ s.leaves.impureCalls = [(send.name, [.str "a"])]
    ∧ s.Reaches t
    ∧ t.activation = .lookAt s.context []
        (.apply 6 (.functionValue 7 send.name) [.string 8 "b"] .notInPipe .noRail)
    ∧ (∀ u, t.Reaches u → u.context.mode = .preview ∧ u.context.onPath = false)
    ∧ ∃ events, t.leaves.log = events ++ t.world.log
      ∧ ∀ entry ∈ events, entry.2.impureCall? = none
  := by
  let c : Context := .start .real 0 0 (Stdlib.registry.addAll [send]) []
  let s : Frame := ⟨20, .eval c [] sendEither, .fresh ⟨0, 0⟩⟩
  let node : Frame := ⟨19, .evalNode c [] sendEither, .fresh ⟨0, 0⟩⟩
  have hlength : node.calls.length = 3 := rfl
  let t : Frame := node.calls.get ⟨2, by rw [hlength]; decide⟩
  have hreaches : s.Reaches t := by
    apply Reaches.step (List.mem_singleton.mpr rfl : node ∈ s.calls)
    exact Reaches.step (List.get_mem _ _) (.refl t)
  have hlook := (isConfined s).2 t _ _ _ hreaches rfl
  have hsends : sendsOnly "a" (eval 20 c [] sendEither (.fresh ⟨0, 0⟩)) = true := by
    decide +kernel
  obtain ⟨w, hrun, hsent⟩ := eq_of_sendsOnly hsends
  have hleaves : s.leaves.impureCalls = [(send.name, [.str "a"])] :=
    (congrArg (fun ending => ending.2.impureCalls) hrun).trans hsent
  exact ⟨s, t, rfl, hleaves, hreaches, rfl, hlook.1, (isConfined t).1 rfl⟩

end Frame

end Interpreter

end LiveExpr
