import LiveExpr.Eval.Run
import Mathlib.Tactic.Common

/-!
# What a run keeps

A run keeps an invariant of the world if it holds afterwards whenever it held before,
however the run ends; what the run may end with is said beside it. The rules follow the
ways in which runs are put together.
-/

namespace LiveExpr

/-- Whether a run that ends like this may do so: a value has to meet `kind`, and a fault
has to be allowed. -/
def Outcome.Meets {α : Type} (allowed : Prop) (kind : α → Prop) : Outcome α → Prop
  | .done value => kind value
  | .fault _ => allowed
  | .outOfFuel => True

theorem Outcome.meets_trivial {α : Type} (outcome : Outcome α) :
  outcome.Meets True fun _ => True
  := by
  cases outcome <;> trivial

/-- Whether a run has ended with a value that passes a test. -/
def Outcome.passes {α : Type} (test : α → Bool) : Outcome α × World → Bool
  | (.done value, _) => test value
  | _ => false

/-- An outcome that passes a test is a value that does. -/
theorem Outcome.of_passes {α : Type} {test : α → Bool} {ending : Outcome α × World}
    (h : passes test ending = true) :
  ∃ value w, ending = (.done value, w) ∧ test value = true
  := by
  obtain ⟨outcome, w⟩ := ending
  cases outcome with
  | done value => exact ⟨value, w, rfl, h⟩
  | fault reason => cases h
  | outOfFuel => cases h

namespace Run

variable {α β : Type} {inv : World → Prop} {allowed : Prop} {kind : α → Prop}
  {kind' : β → Prop}

/-- A run that ends with a value began with one. -/
theorem bind_eq_done {run : Run α} {next : α → Run β} {w w'' : World} {value : β}
    (h : (run >>= next) w = (.done value, w'')) :
  ∃ first w', run w = (.done first, w') ∧ next first w' = (.done value, w'')
  := by
  change andThen run next w = _ at h
  rw [andThen] at h
  split at h
  · next first w' hrun => exact ⟨first, w', hrun, h⟩
  · cases h
  · cases h

/-- A run that begins with a value goes on with it. -/
theorem bind_of_done {run : Run α} {next : α → Run β} {w w' : World} {first : α}
    (h : run w = (.done first, w')) :
  (run >>= next) w = next first w'
  := by
  change andThen run next w = _
  rw [andThen, h]

/-- A value was caught only if there was one. -/
theorem of_caught {run : Run α} {value : α} {w w' : World}
    (h : caught run w = (.done (.ok value), w')) :
  run w = (.done value, w')
  := by
  rw [Run.caught] at h
  generalize run w = r at h
  obtain ⟨_ | _ | _, w''⟩ := r <;> simp_all

/-- A run keeps an invariant, its values meet `kind`, and it only faults if that is
allowed. -/
def Keeps (inv : World → Prop) (allowed : Prop) (kind : α → Prop) (run : Run α) : Prop :=
  ∀ w, inv w → inv (run w).2 ∧ (run w).1.Meets allowed kind

theorem Keeps.done {value : α} (h : kind value) :
  Keeps inv allowed kind (pure value)
  := by
  intro w hw
  constructor
  · apply hw
  · apply h

theorem Keeps.outOfFuel :
  Keeps inv allowed kind outOfFuel
  := by
  intro w hw
  constructor
  · apply hw
  · trivial

theorem Keeps.fault {reason : Option String} (h : allowed) :
  Keeps inv allowed kind (fault reason)
  := by
  intro w hw
  constructor
  · apply hw
  · apply h

/-- Runs that keep an invariant one after another keep it together. -/
theorem Keeps.bind {run : Run α} {next : α → Run β} (hrun : Keeps inv allowed kind run)
    (hnext : ∀ value, kind value → Keeps inv allowed kind' (next value)) :
  Keeps inv allowed kind' (run >>= next)
  := by
  intro w hw
  obtain ⟨hw', hv⟩ := hrun w hw
  change inv (andThen run next w).2 ∧ (andThen run next w).1.Meets allowed kind'
  rw [andThen]
  generalize run w = r at hw' hv
  obtain ⟨_ | _ | _, w'⟩ := r
  · apply hnext _ hv w' hw'
  · use hw', hv
  · exact ⟨hw', trivial⟩

/-- A caught fault is a value, whether or not it was allowed. -/
theorem Keeps.caught {run : Run α} (h : Keeps inv True kind run) :
  Keeps inv allowed (fun result => ∀ value, result = .ok value → kind value) (caught run)
  := by
  intro w hw
  obtain ⟨hw', hv⟩ := h w hw
  rw [Run.caught]
  generalize run w = r at hw' hv
  obtain ⟨_ | _ | _, w'⟩ := r
  · use hw'
    rintro _ ⟨⟩
    apply hv
  · use hw'
    rintro _ ⟨⟩
  · exact ⟨hw', trivial⟩

/-- What is kept of one kind is kept of a wider one. -/
theorem Keeps.mono {run : Run α} {allowed' : Prop} {wider : α → Prop}
    (h : Keeps inv allowed kind run) (ha : allowed → allowed')
    (hk : ∀ value, kind value → wider value) :
  Keeps inv allowed' wider run
  := by
  intro w hw
  obtain ⟨hw', hv⟩ := h w hw
  use hw'
  generalize (run w).1 = r at hv
  cases r with
  | done value => apply hk _ hv
  | fault _ => apply ha hv
  | outOfFuel => trivial

/-- Two invariants that are kept are kept together. -/
theorem Keeps.and {inv' : World → Prop} {allowed' : Prop} {also : α → Prop} {run : Run α}
    (h : Keeps inv allowed kind run) (h' : Keeps inv' allowed' also run) :
  Keeps (fun w => inv w ∧ inv' w) allowed (fun value => kind value ∧ also value) run
  := by
  intro w hw
  obtain ⟨hinv, hmeets⟩ := h w hw.1
  obtain ⟨hinv', hmeets'⟩ := h' w hw.2
  use ⟨hinv, hinv'⟩
  generalize (run w).1 = r at hmeets hmeets'
  cases r with
  | done value => exact ⟨hmeets, hmeets'⟩
  | fault _ => exact hmeets
  | outOfFuel => trivial

/-- A run that keeps more than the invariant, and then one that keeps the invariant if more
holds before it. -/
theorem Keeps.thenFrom {more : World → Prop} {run : Run α} {next : α → Run β}
    (hrun : Keeps more allowed kind run) (hmore : ∀ w, more w → inv w)
    (hnext : ∀ value w, kind value → more w → inv (next value w).2) {w : World}
    (hw : more w) :
  inv ((run >>= next) w).2
  := by
  obtain ⟨hw', hv⟩ := hrun w hw
  change inv (andThen run next w).2
  rw [andThen]
  generalize run w = r at hw' hv
  obtain ⟨_ | _ | _, w'⟩ := r
  · exact hnext _ w' hv hw'
  · exact hmore w' hw'
  · exact hmore w' hw'

/-! ### Reports and results -/

variable {c : Context} {site : CallSite} {args : List Value}

/-- A report is kept and logged before the store may fail. -/
theorem report_eq {executed : Bool} {id : NodeId} {value : Value} (w : World) :
  report c executed id value w
    = (if w.store.failsAfter id then .fault (some s!"trace {id}") else .done (), { w with
        store := w.store.report executed id value
        log := (c, .report executed id value) :: w.log })
  := by
  unfold Run.report
  dsimp only
  rw [TraceStore.failsAfter_report]
  split <;> rfl

/-- A report may fault if the store fails after it. -/
theorem Keeps.report {executed : Bool} {id : NodeId} {value : Value}
    (h : ∀ w, inv w → inv { w with
      store := w.store.report executed id value
      log := (c, .report executed id value) :: w.log })
    (hfault : ∀ w, inv w → (w.store.report executed id value).failsAfter id = true →
      allowed) :
  Keeps inv allowed (fun _ => True) (report c executed id value)
  := by
  intro w hw
  unfold Run.report
  dsimp only
  split
  · next hfails => exact ⟨h w hw, hfault w hw hfails⟩
  · exact ⟨h w hw, trivial⟩

/-- A look-up keeps what holds with its entry in the log. -/
theorem Keeps.load {kind : Option Value → Prop} (hnone : kind none)
    (h : ∀ w hash, inv w →
      inv { w with log := (c, .load site hash (w.store.load? site hash)) :: w.log }
        ∧ kind (w.store.load? site hash)) :
  Keeps inv allowed kind (load c site args)
  := by
  unfold Run.load
  cases c.argumentHash? args with
  | none => exact Keeps.done hnone
  | some hash => exact fun w hw => h w hash hw

/-- A record keeps what holds with the result in the store. -/
theorem Keeps.record {value : Value}
    (h : ∀ w hash, inv w → inv { w with
      store := w.store.record site hash value
      log := (c, .record site hash args value) :: w.log }) :
  Keeps inv allowed (fun _ => True) (record c site args value)
  := by
  unfold Run.record
  cases c.argumentHash? args with
  | none => exact Keeps.done trivial
  | some hash => exact fun w hw => ⟨h w hash hw, trivial⟩

/-- Nothing is loaded of a call that nothing was recorded for. -/
theorem loadIf_eq_none {wanted : Bool} {w : World}
    (hnone : ∀ hash, w.store.load? site hash = none) :
  ∃ w', loadIf wanted c site args w = (.done none, w') ∧ w'.store = w.store
    ∧ (w'.log = w.log ∨ ∃ hash, w'.log = (c, .load site hash none) :: w.log)
  := by
  unfold loadIf
  split
  · unfold load
    cases c.argumentHash? args with
    | none => exact ⟨w, rfl, rfl, .inl rfl⟩
    | some hash =>
      dsimp only
      rw [hnone hash]
      exact ⟨_, rfl, rfl, .inr ⟨hash, rfl⟩⟩
  · exact ⟨w, rfl, rfl, .inl rfl⟩

end Run

/-! ### Results of a kind -/

/-- Whether all recorded results are as they may be at their sites. -/
def World.Recalls (ok : CallSite → Value → Prop) (w : World) : Prop :=
  ∀ site hash value, w.store.load? site hash = some value → ok site value

namespace Run

variable {ok : CallSite → Value → Prop} {c : Context} {site : CallSite} {args : List Value}

theorem report_recalls {executed : Bool} {id : NodeId} {value : Value} :
  Keeps (World.Recalls ok) True (fun _ => True) (report c executed id value)
  := by
  apply Keeps.report
  · intro w hw
    simpa [World.Recalls] using hw
  · exact fun _ _ _ => trivial

theorem enter_recalls {toplevel : ToplevelId} :
  Keeps (World.Recalls ok) True (fun _ => True) (enter c toplevel)
  := by
  intro w hw
  constructor
  · simpa [World.Recalls, enter] using hw
  · trivial

theorem load_recalls :
  Keeps (World.Recalls ok) True (fun found => ∀ value, found = some value → ok site value)
    (load c site args)
  := by
  apply Keeps.load (by rintro _ ⟨⟩)
  intro w hash hw
  use hw
  exact hw site hash

theorem invoke_recalls {f : Function} :
  Keeps (World.Recalls ok) True (fun _ => True) (invoke c f args)
  := fun _ hw => ⟨hw, trivial⟩

/-- A result that is recorded may be recalled later. -/
theorem record_recalls {value : Value} (hvalue : ok site value) :
  Keeps (World.Recalls ok) True (fun _ => True) (record c site args value)
  := by
  apply Keeps.record
  intro w hash hw site' hash' found hfound
  dsimp only at hfound
  rw [TraceStore.load?_record] at hfound
  split at hfound
  · next hsame =>
    obtain rfl := Option.some.inj hfound
    rw [← hsame.2.1]
    exact hvalue
  · exact hw site' hash' found hfound

end Run

end LiveExpr
