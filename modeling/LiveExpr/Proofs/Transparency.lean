import LiveExpr.Eval.Execution
import LiveExpr.Proofs.Congruence
import LiveExpr.Proofs.Keeping
import LiveExpr.Proofs.Reports

/-!
# Transparency

An analysis lays a recording store over the store of the world.  The run does not notice:
it ends as a preview without the recording store does, with the same result and in the same
world.  Meanwhile the recording store keeps the last report of each node, and nothing else.
Main statement: `analyse_iff`.
-/

namespace LiveExpr

/-- Whether two worlds differ in a recording store alone, which keeps the last report of each
node, of all reports but those that were made before it was laid over the other store. -/
def World.IsRecorded (before : LiveValues) (w w' : World) : Prop :=
  ∃ live reports, w = { w' with store := .recording live w'.store }
    ∧ w'.reported = reports ++ before ∧ ∀ id, Assoc.get? id live = Assoc.get? id reports

namespace Run

variable {before : LiveValues} {c : Context} {site : CallSite} {args : List Value}

/-- A recording store keeps what is reported, and the store below it fails as it would. -/
theorem report_recorded {executed : Bool} {id : NodeId} {value : Value} :
  Simulates (World.IsRecorded before) (report c executed id value)
    (report c executed id value)
  := by
  rintro _ w' ⟨live, reports, rfl, hreports, hlive⟩
  rw [report_eq, report_eq]
  refine ⟨rfl, _, (id, ⟨value, executed⟩) :: reports, rfl, congrArg (List.cons _) hreports, ?_⟩
  intro other
  rw [Assoc.get?_set, Assoc.get?, hlive]

theorem enter_recorded {toplevel : ToplevelId} :
  Simulates (World.IsRecorded before) (enter c toplevel) (enter c toplevel)
  := by
  rintro _ w' ⟨live, reports, rfl, hreports, hlive⟩
  exact ⟨rfl, live, reports, rfl, hreports, hlive⟩

theorem load_recorded :
  Simulates (World.IsRecorded before) (load c site args) (load c site args)
  := by
  unfold Run.load
  cases c.argumentHash? args with
  | none => exact Simulates.done
  | some hash =>
    rintro _ w' ⟨live, reports, rfl, hreports, hlive⟩
    exact ⟨rfl, live, reports, rfl, hreports, hlive⟩

theorem record_recorded {value : Value} :
  Simulates (World.IsRecorded before) (record c site args value) (record c site args value)
  := by
  unfold Run.record
  cases c.argumentHash? args with
  | none => exact Simulates.done
  | some hash =>
    rintro _ w' ⟨live, reports, rfl, hreports, hlive⟩
    exact ⟨rfl, live, reports, rfl, hreports, hlive⟩

theorem invoke_recorded {f : Function} :
  Simulates (World.IsRecorded before) (invoke c f args) (invoke c f args)
  := by
  rintro _ w' ⟨live, reports, rfl, hreports, hlive⟩
  exact ⟨rfl, live, reports, rfl, hreports, hlive⟩

theorem isCongruence_recorded (version : UInt32) :
  IsCongruence version version (Simulates (World.IsRecorded before))
  where
  done := .done
  fault := .fault
  bind := .bind
  caught := .caught
  report := report_recorded
  enter := enter_recorded
  load := load_recorded
  record := record_recorded
  invoke := invoke_recorded

end Run

namespace Execution

open Run (Simulates)

variable {before : LiveValues} {c : Context} {scope : Scope} {e : Expr}

/-- An execution below a recording store ends as it does without. -/
theorem execute_recorded :
  Simulates (World.IsRecorded before) (execute c scope e) (execute c scope e)
  := by
  have heval : Simulates (World.IsRecorded before) (Interpreter.eval fuel c scope e)
      (Interpreter.eval fuel c scope e) :=
    Interpreter.Activation.simulates (Run.isCongruence_recorded c.hashVersion) fuel
      (.eval c scope e)
  rw [execute, guarded]
  refine heval.caught.bind fun outcome => ?_
  cases outcome <;> exact .done

/-- An analysis ends with the result of a preview, in the same world, and its live values
are the last reports of the preview. -/
theorem analyse_iff (c : Context) (scope : Scope) (e : Expr) (w : World) :
  ∃ live reports, (execute { c with mode := .preview } scope e w).2.reported
      = reports ++ w.reported
    ∧ (∀ id, Assoc.get? id live = Assoc.get? id reports)
    ∧ ∀ analysis w', analyse c scope e w = (.done analysis, w')
      ↔ execute { c with mode := .preview } scope e w = (.done analysis.result, w')
        ∧ analysis.live = live
  := by
  let preview : Context := { c with mode := .preview }
  let recording : World := { w with store := .recording [] w.store }
  have hstart : startRecording w = (.done (), recording) := rfl
  have hrecording : World.IsRecorded w.reported recording w :=
    ⟨[], [], rfl, rfl, fun _ => rfl⟩
  have hsimulates : Simulates (World.IsRecorded w.reported) (execute preview scope e)
      (execute preview scope e) := execute_recorded
  obtain ⟨houtcome, live, reports, hworld, hreports, hlive⟩ := hsimulates _ _ hrecording
  refine ⟨live, reports, hreports, hlive, ?_⟩
  intro analysis w'
  constructor
  · intro h
    rw [analyse, Run.bind_of_done hstart] at h
    obtain ⟨result, w₁, hresult, h⟩ := Run.bind_eq_done h
    rw [hresult] at houtcome hworld
    obtain rfl : w₁ = _ := hworld
    cases h
    exact ⟨Prod.ext houtcome.symm rfl, rfl⟩
  · rintro ⟨hpreview, rfl⟩
    rw [hpreview] at houtcome hworld
    have hresult : execute preview scope e recording
        = (.done analysis.result, { w' with store := .recording analysis.live w'.store }) :=
      Prod.ext houtcome hworld
    rw [analyse, Run.bind_of_done hstart, Run.bind_of_done hresult]
    rfl

end Execution

end LiveExpr
