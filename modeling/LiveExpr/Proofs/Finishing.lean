import LiveExpr.Proofs.Steps
import LiveExpr.Proofs.Keeping
import Mathlib.Order.Filter.AtTopBot.Basic

/-!
# Finishing

Evaluation finishes if some amount of fuel suffices; then more fuel changes nothing. A
function of the interpreter finishes if those that it calls do, so it does unless there is
an infinite chain of calls. Main statement: `Activation.finishes_of_acc`.
-/

namespace LiveExpr

open Filter (atTop)

namespace Run

variable {α β : Type} {w : World}

/-- Whether a run comes to an end if there is enough fuel: from some amount on it ends in
one way, and not for lack of fuel. -/
def Finishes (run : Nat → Run α) (w : World) : Prop :=
  ∃ ending : Outcome α × World, ending.1 ≠ .outOfFuel ∧ ∀ᶠ fuel in atTop, run fuel w = ending

/-- Whether a run comes to an end without fuel. -/
def Ends (run : Run α) : Prop :=
  ∀ w, (run w).1 ≠ .outOfFuel

/-- A run that ends without fuel finishes. -/
theorem Ends.finishes {run : Run α} (h : run.Ends) :
  Finishes (fun _ => run) w
  := ⟨run w, h w, .of_forall fun _ => rfl⟩

theorem Ends.done {value : α} :
  Ends (pure value)
  := by rintro _ ⟨⟩

theorem Ends.fault {reason : Option String} :
  Ends (fault reason : Run α)
  := by rintro _ ⟨⟩

/-- Runs that end one after another end together. -/
theorem Ends.bind {run : Run α} {next : α → Run β} (hrun : run.Ends)
    (hnext : ∀ value, (next value).Ends) :
  Ends (run >>= next)
  := by
  intro w
  have hw := hrun w
  change (andThen run next w).1 ≠ .outOfFuel
  rw [andThen]
  generalize run w = ending at hw
  obtain ⟨_ | _ | _, w'⟩ := ending
  · exact hnext _ w'
  · rintro ⟨⟩
  · exact absurd rfl hw

/-- A run that finishes with one unit more finishes. -/
theorem Finishes.succ {run : Nat → Run α} (h : Finishes (fun fuel => run (fuel + 1)) w) :
  Finishes run w
  := by
  obtain ⟨ending, hending, hrun⟩ := h
  obtain ⟨n, hrun⟩ := Filter.eventually_atTop.mp hrun
  refine ⟨ending, hending, Filter.eventually_atTop.mpr ⟨n + 1, ?_⟩⟩
  intro fuel hfuel
  obtain ⟨fuel, rfl⟩ := Nat.exists_eq_add_of_le' (Nat.le_of_add_left_le hfuel)
  exact hrun fuel (by omega)

/-- What follows a run has to finish with its value, in the world that it leaves. -/
theorem Finishes.bind {run : Nat → Run α} {next : Nat → α → Run β} (hrun : Finishes run w)
    (hnext : ∀ value w', (∀ᶠ fuel in atTop, run fuel w = (.done value, w')) →
      Finishes (fun fuel => next fuel value) w') :
  Finishes (fun fuel => run fuel >>= next fuel) w
  := by
  obtain ⟨⟨outcome, w'⟩, hending, hrun⟩ := hrun
  cases outcome with
  | done value =>
    obtain ⟨ending, hending, hnext⟩ := hnext value w' hrun
    use ending, hending
    filter_upwards [hrun, hnext] with fuel hrun hnext
    rw [bind_of_done hrun, hnext]
  | fault reason =>
    refine ⟨(.fault reason, w'), by rintro ⟨⟩, ?_⟩
    filter_upwards [hrun] with fuel hrun
    change andThen (run fuel) (next fuel) w = _
    rw [andThen, hrun]
  | outOfFuel => exact absurd rfl hending

/-- A run finishes whether its fault is caught or not. -/
theorem Finishes.caught {run : Nat → Run α} (h : Finishes run w) :
  Finishes (fun fuel => caught (run fuel)) w
  := by
  obtain ⟨⟨outcome, w'⟩, hending, hrun⟩ := h
  cases outcome with
  | done value =>
    refine ⟨(.done (.ok value), w'), by rintro ⟨⟩, ?_⟩
    filter_upwards [hrun] with fuel hrun
    rw [Run.caught, hrun]
  | fault reason =>
    refine ⟨(.done (.error reason), w'), by rintro ⟨⟩, ?_⟩
    filter_upwards [hrun] with fuel hrun
    rw [Run.caught, hrun]
  | outOfFuel => exact absurd rfl hending

/-! ### Reports and results -/

variable {c : Context} {site : CallSite} {args : List Value}

theorem Ends.report {executed : Bool} {id : NodeId} {value : Value} :
  Ends (report c executed id value)
  := by
  intro w
  rw [report_eq]
  split <;> rintro ⟨⟩

theorem Ends.enter {toplevel : ToplevelId} :
  Ends (enter c toplevel)
  := by rintro _ ⟨⟩

theorem Ends.load :
  Ends (load c site args)
  := by
  unfold Run.load
  split <;> rintro _ ⟨⟩

theorem Ends.loadIf {wanted : Bool} :
  Ends (loadIf wanted c site args)
  := by
  unfold Run.loadIf
  split
  · exact Ends.load
  · exact Ends.done

theorem Ends.record {value : Value} :
  Ends (record c site args value)
  := by
  unfold Run.record
  split <;> rintro _ ⟨⟩

theorem Ends.invoke {f : Function} :
  Ends (invoke c f args)
  := by rintro _ ⟨⟩

end Run

namespace Interpreter

open Run (Ends)

/-- The reports of a pattern end. -/
theorem reportPattern_ends {c : Context} {executed : Bool} (reports : List (NodeId × Value)) :
  Ends (reportPattern c executed reports)
  := by
  induction reports with
  | nil => exact Ends.done
  | cons report rest ih => exact Ends.report.bind fun _ => ih

/-! ### Calls -/

/-- Whether a function of the interpreter finishes in a world. -/
def Activation.Finishes (w : World) (activation : Activation) : Prop :=
  Run.Finishes (fun fuel => activation.run fuel) w

/-- Whether, from some fuel on, all calls are to functions that finish. -/
def AllFinish (calls : Nat → List Frame) : Prop :=
  ∀ᶠ fuel in atTop, ∀ t ∈ calls fuel, t.activation.Finishes t.world

section

variable {c : Context} {scope : Scope} {w w' : World} {activation : Activation}

/-- The first call finishes. -/
theorem AllFinish.head {rest : Nat → List Frame}
    (h : AllFinish fun fuel => ⟨fuel, activation, w⟩ :: rest fuel) :
  activation.Finishes w
  := by
  obtain ⟨fuel, h⟩ := Filter.Eventually.exists h
  exact h _ List.mem_cons_self

/-- The calls after the first finish. -/
theorem AllFinish.tail {first : Nat → Frame} {rest : Nat → List Frame}
    (h : AllFinish fun fuel => first fuel :: rest fuel) :
  AllFinish rest
  := Filter.Eventually.mono h fun _ h t ht => h t (List.mem_cons_of_mem _ ht)

/-- The calls after a run that comes to a value finish. -/
theorem AllFinish.after {α : Type} {run : Nat → Run α} {next : Nat → α → World → List Frame}
    (h : AllFinish fun fuel => Frame.after (run fuel) w (next fuel)) {value : α}
    (hrun : ∀ᶠ fuel in atTop, run fuel w = (.done value, w')) :
  AllFinish fun fuel => next fuel value w'
  := by
  rw [AllFinish] at h ⊢
  filter_upwards [h, hrun] with fuel h hrun
  rw [Frame.after, hrun] at h
  exact h

end

open Run (Finishes)
open Interpreter.Frame (callsOf)

/-- What a tree says is done to the end if its calls finish. -/
theorem Step.finishes {c : Context} {α : Type} {step : Step c α} {w : World}
    (h : AllFinish fun fuel => step.calls fuel w) :
  Finishes (fun fuel => step.run fuel) w
  := by
  induction step generalizing w with
  | done value => apply Ends.done.finishes
  | fault reason => exact Ends.fault.finishes
  | call activation next ih =>
    apply Finishes.bind h.head
    intro result w' hrun
    exact ih result (h.tail.after hrun)
  | attempt activation next ih =>
    apply Finishes.bind (Finishes.caught h.head)
    intro result w' hrun
    exact ih result (h.tail.after hrun)
  | report executed hexecuted reports next ih =>
    apply Finishes.bind (reportPattern_ends _).finishes
    intro _ w' hrun
    exact ih (h.after hrun)
  | enter toplevel next ih =>
    apply Finishes.bind Ends.enter.finishes
    intro _ w' hrun
    exact ih (h.after hrun)
  | load wanted site args next ih =>
    apply Finishes.bind Ends.loadIf.finishes
    intro recorded w' hrun
    exact ih recorded (h.after hrun)
  | record site args value next ih =>
    apply Finishes.bind Ends.record.finishes
    intro _ w' hrun
    exact ih (h.after hrun)
  | invoke f args hallowed next ih =>
    apply Finishes.bind Ends.invoke.finishes
    intro known w' hrun
    exact ih known (h.after hrun)

/-! ### Chains of calls -/

/-- Whether a function of the interpreter, in a world, calls another, with some fuel. -/
def Calls (t s : Activation × World) : Prop :=
  ∃ fuel, ⟨fuel, t.1, t.2⟩ ∈ callsOf fuel s.2 s.1

namespace Activation

/-- A function of the interpreter finishes if those that it calls do. -/
theorem finishes_of_calls {activation : Activation}
    (h : ∀ t, Calls t (activation, w) → t.1.Finishes t.2) :
  activation.Finishes w
  := by
  have hcalls : AllFinish fun fuel => callsOf fuel w activation := by
    apply Filter.Eventually.of_forall
    intro fuel t ht
    obtain ⟨rfl, -⟩ := Frame.callsOf_below activation t ht
    exact h (t.activation, t.world) ⟨t.fuel, ht⟩
  apply Finishes.succ
  simp only [activation.run_succ]
  simp only [Frame.callsOf_eq] at hcalls
  exact Step.finishes hcalls

/-- A function of the interpreter finishes if no chain of calls from it is infinite. -/
theorem finishes_of_acc {activation : Activation} (h : Acc Calls (activation, w)) :
  activation.Finishes w
  := by
  generalize hs : (activation, w) = s at h
  induction h generalizing activation w with
  | intro s _ ih =>
    subst hs
    exact finishes_of_calls fun t ht => ih t ht rfl

end Activation

end Interpreter

end LiveExpr
