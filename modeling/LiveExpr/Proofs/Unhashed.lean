import LiveExpr.Proofs.Congruence
import LiveExpr.Proofs.Keeping

/-!
# Runs without hashes

Under a version of the hash that is not supported, no result is recorded and none stands in
for a call.  A run ends as it does with a store that keeps nothing, under whatever version,
and leaves the recorded results as they are.  Main statement: `eval_unhashed`.
-/

namespace LiveExpr

namespace Hashable

/-- Arguments have a hash under a version if and only if it is supported. -/
theorem hash_eq_ok_iff {version : UInt32} {args : List Value} :
  (∃ text, hash version args = .ok text) ↔ version ∈ supportedVersions
  := by
  simp only [supportedVersions, List.mem_cons, List.not_mem_nil, or_false]
  constructor
  · rintro ⟨text, h⟩
    by_contra! hversion
    rw [hash, argumentBytes, if_neg hversion.1, if_neg hversion.2] at h
    cases h
  · rintro (rfl | rfl)
    · exact ⟨_, rfl⟩
    · exact ⟨_, rfl⟩

end Hashable

theorem Context.argumentHash?_eq_none {c : Context} (h : c.hashVersion ∉ Hashable.supportedVersions)
    (args : List Value) :
  c.argumentHash? args = none
  := by
  rw [argumentHash?]
  cases hhash : Hashable.hash c.hashVersion args with
  | error e => rfl
  | ok text => exact absurd (Hashable.hash_eq_ok_iff.mp ⟨text, hhash⟩) h

/-! ### Recorded results -/

namespace TraceStore

variable {store : TraceStore}

/-- The results that a store keeps. -/
def results? (store : TraceStore) : Option Results :=
  store.memory?.map Memory.results

theorem results?_report {executed : Bool} {id : NodeId} {value : Value} :
  (store.report executed id value).results? = store.results?
  := by
  induction store with
  | discarding => rfl
  | memory m => rfl
  | recording live inner ih => exact ih
  | failing ids inner ih => exact ih

theorem results?_enter {toplevel : ToplevelId} :
  (store.enter toplevel).results? = store.results?
  := by
  induction store with
  | discarding => rfl
  | memory m =>
    rw [enter, results?, results?, memory?, memory?, Memory.enter]
    split <;> rfl
  | recording live inner ih => exact ih
  | failing ids inner ih => exact ih

/-- The store that keeps nothing, and fails after the same reports as another one. -/
def silenced : TraceStore → TraceStore
  | .discarding | .memory _ => .discarding
  | .recording _ inner => silenced inner
  | .failing ids inner => .failing ids (silenced inner)

theorem failsAfter_silenced {id : NodeId} :
  store.silenced.failsAfter id = store.failsAfter id
  := by
  induction store with
  | discarding => rfl
  | memory m => rfl
  | recording live inner ih => exact ih
  | failing ids inner ih => exact congrArg (decide (id ∈ ids) || ·) ih

theorem keepsResults_silenced :
  store.silenced.keepsResults = false
  := by
  induction store with
  | discarding => rfl
  | memory m => rfl
  | recording live inner ih => exact ih
  | failing ids inner ih => exact ih

/-- A store that keeps no results has none. -/
theorem load?_eq_none (h : store.keepsResults = false) (site : CallSite) (hash : String) :
  store.load? site hash = none
  := by
  induction store with
  | discarding => rfl
  | memory m => cases h
  | recording live inner ih => exact ih h
  | failing ids inner ih => exact ih h

end TraceStore

/-- Whether two worlds differ in their logs and stores alone, which fail after the same
reports: the one has some recorded results, the other keeps none. -/
structure World.IsUncached (results : Option Results) (w w' : World) : Prop where
  calls : w.calls = w'.calls
  turns : w.turns = w'.turns
  now : w.now = w'.now
  failsAfter : ∀ id, w'.store.failsAfter id = w.store.failsAfter id
  results : w.store.results? = results
  keepsResults : w'.store.keepsResults = false

namespace Run

variable {results : Option Results} {version version' : UInt32} {c : Context}
  {site : CallSite} {args : List Value}

theorem report_uncached {executed : Bool} {id : NodeId} {value : Value} :
  Simulates (World.IsUncached results) (report (c.rehash version) executed id value)
    (report (c.rehash version') executed id value)
  := by
  intro w w' hw
  rw [report_eq, report_eq, hw.failsAfter]
  refine ⟨rfl, hw.calls, hw.turns, hw.now, ?_, ?_, ?_⟩
  · intro other
    rw [TraceStore.failsAfter_report, TraceStore.failsAfter_report, hw.failsAfter]
  · exact TraceStore.results?_report.trans hw.results
  · exact TraceStore.keepsResults_report.trans hw.keepsResults

theorem enter_uncached {toplevel : ToplevelId} :
  Simulates (World.IsUncached results) (enter (c.rehash version) toplevel)
    (enter (c.rehash version') toplevel)
  := by
  intro w w' hw
  refine ⟨rfl, hw.calls, hw.turns, hw.now, ?_, ?_, ?_⟩
  · intro other
    exact TraceStore.failsAfter_enter.trans
      ((hw.failsAfter other).trans TraceStore.failsAfter_enter.symm)
  · exact TraceStore.results?_enter.trans hw.results
  · exact TraceStore.keepsResults_enter.trans hw.keepsResults

/-- Without a hash nothing is looked for, and a store that keeps nothing finds nothing. -/
theorem load_uncached (hversion : version ∉ Hashable.supportedVersions) :
  Simulates (World.IsUncached results) (load (c.rehash version) site args)
    (load (c.rehash version') site args)
  := by
  intro w w' hw
  rw [load, Context.argumentHash?_eq_none hversion, load]
  cases (c.rehash version').argumentHash? args with
  | none => exact ⟨rfl, hw⟩
  | some hash =>
    refine ⟨?_, hw.calls, hw.turns, hw.now, hw.failsAfter, hw.results, hw.keepsResults⟩
    exact congrArg Outcome.done (TraceStore.load?_eq_none hw.keepsResults site hash).symm

theorem record_uncached (hversion : version ∉ Hashable.supportedVersions) {value : Value} :
  Simulates (World.IsUncached results) (record (c.rehash version) site args value)
    (record (c.rehash version') site args value)
  := by
  intro w w' hw
  rw [record, Context.argumentHash?_eq_none hversion, record]
  cases (c.rehash version').argumentHash? args with
  | none => exact ⟨rfl, hw⟩
  | some hash =>
    refine ⟨rfl, hw.calls, hw.turns, hw.now, ?_, hw.results, ?_⟩
    · exact fun id => TraceStore.failsAfter_record.trans (hw.failsAfter id)
    · exact TraceStore.keepsResults_record.trans hw.keepsResults

theorem invoke_uncached {f : Function} :
  Simulates (World.IsUncached results) (invoke (c.rehash version) f args)
    (invoke (c.rehash version') f args)
  := by
  intro w w' hw
  rw [invoke, invoke, hw.calls, hw.turns, hw.now]
  exact ⟨rfl, rfl, rfl, rfl, hw.failsAfter, hw.results, hw.keepsResults⟩

theorem isCongruence_uncached (hversion : version ∉ Hashable.supportedVersions)
    (version' : UInt32) :
  IsCongruence version version' (Simulates (World.IsUncached results))
  where
  done := .done
  fault := .fault
  bind := .bind
  caught := .caught
  report := report_uncached
  enter := enter_uncached
  load := load_uncached hversion
  record := record_uncached hversion
  invoke := invoke_uncached

end Run

namespace Interpreter

/-- Under a version of the hash that is not supported, evaluation ends as it does under any
version with a store that keeps nothing, and leaves the recorded results as they are. -/
theorem eval_unhashed {c : Context} (hversion : c.hashVersion ∉ Hashable.supportedVersions)
    (version : UInt32) (fuel : Nat) (scope : Scope) (e : Expr) (w : World) :
  (eval fuel c scope e w).1
      = (eval fuel { c with hashVersion := version } scope e
          { w with store := w.store.silenced }).1
    ∧ (eval fuel c scope e w).2.store.results? = w.store.results?
  := by
  have hworlds : World.IsUncached w.store.results? w { w with store := w.store.silenced } :=
    ⟨rfl, rfl, rfl, fun _ => TraceStore.failsAfter_silenced, rfl,
      TraceStore.keepsResults_silenced⟩
  have hsimulates : Run.Simulates (World.IsUncached w.store.results?) (eval fuel c scope e)
      (eval fuel { c with hashVersion := version } scope e) :=
    Activation.simulates (Run.isCongruence_uncached hversion version) fuel (.eval c scope e)
  obtain ⟨houtcome, hw⟩ := hsimulates _ _ hworlds
  exact ⟨houtcome, hw.results⟩

/-- A call of a function that there is not. -/
def missing : Expr :=
  .apply 1 (.functionValue 2 (.user "missing")) [.integer 3 7] .notInPipe .noRail

/-- A store that has a result of the call. -/
def recollection : TraceStore :=
  .memory ⟨[((⟨0, .user "missing", 1⟩, "hash"), .int 5)], [], []⟩

/-- Under a version that is not supported, a preview of the call does without the store. -/
theorem eval_unhashed_missing :
  2 ∉ Hashable.supportedVersions
    ∧ (eval 10 (.start .preview 2 0 [] []) [] missing
          { World.fresh ⟨0, 0⟩ with store := recollection }).1
      = (eval 10 (.start .preview 1 0 [] []) [] missing
          { World.fresh ⟨0, 0⟩ with store := .discarding }).1
    ∧ (eval 10 (.start .preview 2 0 [] []) [] missing
        { World.fresh ⟨0, 0⟩ with store := recollection }).2.store.results?
      = recollection.results?
  := by
  have hversion : 2 ∉ Hashable.supportedVersions := by decide
  use hversion
  exact eval_unhashed (c := .start .preview 2 0 [] []) hversion 1 10 [] missing
    { World.fresh ⟨0, 0⟩ with store := recollection }

end Interpreter

end LiveExpr
