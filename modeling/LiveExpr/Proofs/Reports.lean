import LiveExpr.Proofs.Replaying
import LiveExpr.Proofs.Steps
import Mathlib.Data.Multiset.Bind
import Mathlib.Tactic.Abel

/-!
# Reports

What is reported during a run, and by which of the frames that it reaches: each function of
the interpreter reports a few places of its own, and the rest is what those that it calls
report. Nothing that a run calls lacks fuel unless the run does. Main statements:
`Frame.reported_leaves` and `Frame.Reaches.ends`.
-/

namespace LiveExpr

/-- A place with what it is reported with. -/
abbrev Report := Place × LiveValue

/-- What a report leaves in the log. -/
def Report.entry (report : Report) : NodeId × LiveValue :=
  (report.1.id, report.2)

/-- What an event reports. -/
def Event.reported? : Event → Option (NodeId × LiveValue)
  | .report executed id value => some (id, ⟨value, executed⟩)
  | _ => none

/-- All that was reported, the latest first. -/
def World.reported (w : World) : LiveValues :=
  w.log.filterMap fun entry => entry.2.reported?

namespace Interpreter

namespace Frame

/-! ### Frames that are reached -/

/-- The frames that a frame reaches in some steps, one after another. -/
def reachedWithin : Nat → Frame → List Frame
  | 0, s => [s]
  | depth + 1, s => s :: s.calls.flatMap (reachedWithin depth)

/-- The frames that a frame reaches, itself included, one after another. -/
def reached (s : Frame) : List Frame :=
  reachedWithin s.fuel s

/-- A frame reaches itself and what its calls reach. -/
theorem reached_eq (s : Frame) :
  s.reached = s :: s.calls.flatMap reached
  := by
  obtain ⟨_ | fuel, activation, w⟩ := s
  · rfl
  · have hcalls : ∀ t ∈ callsOf fuel w activation, reachedWithin fuel t = t.reached := by
      intro t ht
      obtain ⟨hfuel, -⟩ := descends_of_mem_calls (s := ⟨fuel + 1, activation, w⟩) ht
      rw [reached, Nat.succ.inj hfuel]
    change _ :: (callsOf fuel w activation).flatMap _ = _
    rw [List.flatMap_congr hcalls]
    rfl

/-- The list of the frames that are reached has those that are. -/
theorem mem_reached_iff {s t : Frame} :
  t ∈ s.reached ↔ s.Reaches t
  := by
  constructor
  · intro h
    obtain ⟨fuel, activation, w⟩ := s
    induction fuel generalizing activation w with
    | zero =>
      obtain rfl := List.mem_singleton.mp h
      exact .refl _
    | succ fuel ih =>
      rw [reached_eq] at h
      rcases List.mem_cons.mp h with rfl | h
      · exact .refl _
      · obtain ⟨⟨fuel', activation', w'⟩, hcall, hreached⟩ := List.mem_flatMap.mp h
        obtain ⟨hfuel, -⟩ := descends_of_mem_calls hcall
        obtain rfl := Nat.succ.inj hfuel
        exact .step hcall (ih activation' w' hreached)
  · intro h
    induction h with
    | refl s =>
      rw [reached_eq]
      exact List.mem_cons_self
    | step hcall _ ih =>
      rw [reached_eq]
      exact List.mem_cons_of_mem _ (List.mem_flatMap.mpr ⟨_, hcall, ih⟩)

/-! ### Reports of frames -/

/-- What is counted after a run, if it ends with a value. -/
def thereafter {α β : Type} (run : Run α) (w : World) (next : α → World → Multiset β) :
    Multiset β :=
  match run w with
  | (.done value, w) => next value w
  | _ => 0

theorem thereafter_congr {α β : Type} {run : Run α} {w : World}
    {next next' : α → World → Multiset β} (h : ∀ value w', next value w' = next' value w') :
  thereafter run w next = thereafter run w next'
  := by rw [funext fun value => funext fun w' => h value w']

/-- The reports of a pattern. -/
def patternReports (executed : Bool) (reports : List (NodeId × Value)) : Multiset Report :=
  Multiset.ofList (reports.map fun report => (.mark report.1, ⟨report.2, executed⟩))

/-- The reports of the parameters of a lambda. -/
def parameterReports (c : Context) (parameters : List (NodeId × String)) : Multiset Report :=
  Multiset.ofList (parameters.map fun parameter =>
    (.mark parameter.1, ⟨.incomplete (c.source parameter.1), c.onPath⟩))

/-- The reports of a function of the interpreter with one unit of fuel more, beside those of
its calls. -/
def reportsOf (fuel : Nat) (w : World) : Activation → Multiset Report
  | .eval c scope e =>
    thereafter (evalNode fuel c scope e) w fun value _ => {(.node e, ⟨value, c.onPath⟩)}
  | .evalNode c _ (.lambda _ parameters _) =>
    if c.mode = .preview then parameterReports c parameters else 0
  | .evalNode c scope (.apply id callee args (.inPipe pipe) railUse) =>
    thereafter (eval fuel c scope callee) w fun callee w =>
      thereafter (evalArgs fuel c scope args) w fun values w =>
        thereafter (applyValue fuel c id callee values (.inPipe pipe) railUse) w
          fun result _ => {(.mark pipe, ⟨result, c.onPath⟩)}
  | .evalCases c scope value ((pattern, body) :: _) chosen =>
    let m := Matching.check c.toplevel value pattern
    if chosen.isNone && m.matched then
      thereafter (eval fuel c (m.extend scope) body) w fun _ _ =>
        patternReports c.onPath m.reports
    else
      thereafter (lookAt fuel c (m.extend scope) body) w fun _ _ =>
        patternReports false m.reports
  | _ => 0

/-- The reports of a frame, beside those of its calls. -/
def ownReports : Frame → Multiset Report
  | ⟨0, _, _⟩ => 0
  | ⟨fuel + 1, activation, w⟩ => reportsOf fuel w activation

/-- The reports of all frames that a frame reaches. -/
def reports (s : Frame) : Multiset Report :=
  (s.reached : Multiset Frame).bind ownReports

/-- The reports of a frame are its own and those of its calls. -/
theorem reports_eq (s : Frame) :
  s.reports = s.ownReports + (s.calls : Multiset Frame).bind reports
  := by
  rw [reports, reached_eq, ← Multiset.cons_coe, Multiset.cons_bind, ← Multiset.coe_bind,
    Multiset.bind_assoc]
  rfl

/-- A report is made by a frame that is reached. -/
theorem mem_reports_iff {s : Frame} {report : Report} :
  report ∈ s.reports ↔ ∃ t, s.Reaches t ∧ report ∈ t.ownReports
  := by
  simp only [reports, Multiset.mem_bind, Multiset.mem_coe, mem_reached_iff]

end Frame

/-! ### Accounts -/

/-- Whether a function of the interpreter does not lack fuel. -/
def Activation.Ends (fuel : Nat) (w : World) (activation : Activation) : Prop :=
  (activation.run fuel w).1 ≠ .outOfFuel

/-- Whether a frame does not lack fuel. -/
def Frame.Ends (s : Frame) : Prop :=
  s.activation.Ends s.fuel s.world

/-- Whether what was reported from one world to another is what some calls reported, and
some reports beside that. The calls are made with the store in memory, and none of them
lacks fuel if the whole does not. -/
structure Accounts (calls : List Frame) (own : Multiset Report) (ended : Prop)
    (w w' : World) : Prop where
  memory : w'.store.IsMemory
  reported : (w'.reported : Multiset (NodeId × LiveValue))
    = (own + (calls : Multiset Frame).bind Frame.reports).map Report.entry + w.reported
  called : ∀ t ∈ calls, t.world.store.IsMemory ∧ (ended → t.Ends)

/-- Whether a frame is accounted for by its calls and its own reports. -/
def Frame.IsAccountable (s : Frame) : Prop :=
  Accounts s.calls s.ownReports s.Ends s.world s.leaves

end Interpreter

namespace Run

open Interpreter (Accounts Frame)
open Interpreter.Frame (after thereafter)

variable {α β : Type} {run : Run α} {next : α → Run β} {w : World} {t : Frame}
variable {calls : List Frame} {own : Multiset Report} {k : α → World → List Frame}

/-- Whether a run is accounted for by some calls and some reports. -/
def Reports (calls : List Frame) (own : Multiset Report) (run : Run α) (w : World) : Prop :=
  Accounts calls own ((run w).1 ≠ .outOfFuel) w (run w).2

/-- A run that leaves the log as it was reports nothing. -/
theorem Reports.nothing (h : (run w).2.store.IsMemory)
    (hreported : (run w).2.reported = w.reported) :
  Reports [] 0 run w
  where
  memory := h
  reported := by rw [hreported]; rfl
  called := List.forall_mem_nil _

theorem Reports.done {value : α} (hw : w.store.IsMemory) :
  Reports [] 0 (pure value) w
  := nothing hw rfl

theorem Reports.outOfFuel (hw : w.store.IsMemory) :
  Reports [] 0 (outOfFuel : Run α) w
  := nothing hw rfl

theorem Reports.fault {reason : Option String} (hw : w.store.IsMemory) :
  Reports [] 0 (fault reason : Run α) w
  := nothing hw rfl

/-- A run is accounted for as before when its fault is caught. -/
theorem Reports.caught (h : Reports calls own run w) :
  Reports calls own (caught run) w
  := by
  obtain ⟨hmemory, hreported, hcalled⟩ := h
  have hworld : (Run.caught run w).2 = (run w).2 := by
    rw [Run.caught]
    split <;> simp [*]
  have hended : (Run.caught run w).1 ≠ .outOfFuel → (run w).1 ≠ .outOfFuel := by
    rw [Run.caught]
    split <;> simp [*]
  constructor
  · rw [hworld]
    exact hmemory
  · rw [hworld]
    exact hreported
  · exact fun t ht => ⟨(hcalled t ht).1, fun h => (hcalled t ht).2 (hended h)⟩

/-- What is run one after another is accounted for by the calls and the reports of both. -/
theorem Reports.bind {own' : α → World → Multiset Report} (hrun : Reports calls own run w)
    (hnext : ∀ value w', w'.store.IsMemory →
      Reports (k value w') (own' value w') (next value) w') :
  Reports (calls ++ after run w k) (own + thereafter run w own') (run >>= next) w
  := by
  obtain ⟨hmemory, hreported, hcalled⟩ := hrun
  change Accounts _ _ ((andThen run next w).1 ≠ .outOfFuel) w (andThen run next w).2
  rw [andThen, after, thereafter]
  generalize run w = ending at hmemory hreported hcalled
  obtain ⟨_ | _ | _, w'⟩ := ending
  · obtain ⟨hmemory', hreported', hcalled'⟩ := hnext _ w' hmemory
    refine ⟨hmemory', ?_, ?_⟩
    · rw [hreported', hreported, ← Multiset.coe_add, Multiset.add_bind]
      simp only [Multiset.map_add]
      abel
    · intro t ht
      rcases List.mem_append.mp ht with ht | ht
      · exact ⟨(hcalled t ht).1, fun _ => (hcalled t ht).2 (by simp)⟩
      · exact hcalled' t ht
  · refine ⟨hmemory, ?_, ?_⟩
    · simpa using hreported
    · simpa using hcalled
  · refine ⟨hmemory, ?_, ?_⟩
    · simpa using hreported
    · simpa using hcalled

theorem thereafter_eq_zero {next : α → World → Multiset β}
    (h : ∀ value w', next value w' = 0) :
  thereafter run w next = 0
  := by
  rw [thereafter]
  split
  · exact h _ _
  · rfl

/-- Nothing is reported by a run beside its calls, but after it. -/
theorem Reports.thenOwn {own' : α → World → Multiset Report} (hrun : Reports calls 0 run w)
    (hnext : ∀ value w', w'.store.IsMemory →
      Reports (k value w') (own' value w') (next value) w') :
  Reports (calls ++ after run w k) (thereafter run w own') (run >>= next) w
  := by
  have h := hrun.bind hnext
  rwa [zero_add] at h

/-! ### What is not reported -/

variable {c : Context} {site : CallSite} {args : List Value}

/-- A report in memory is accounted for by itself. -/
theorem Reports.report {executed : Bool} {value : Value} (place : Place)
    (hw : w.store.IsMemory) :
  Reports [] {(place, ⟨value, executed⟩)} (report c executed place.id value) w
  := by
  rw [Reports, report_eq_done hw]
  refine ⟨hw.report, ?_, List.forall_mem_nil _⟩
  rfl

/-- A report, and others after it. -/
theorem Reports.afterReport {executed : Bool} {value : Value} (place : Place)
    (hw : w.store.IsMemory) {next : Unit → Run α}
    (hnext : ∀ w', w'.store.IsMemory → Reports [] own (next ()) w') :
  Reports [] ((place, ⟨value, executed⟩) ::ₘ own)
    (Run.report c executed place.id value >>= next) w
  := by
  have hreport : Reports [] _ (Run.report c executed place.id value) w := .report place hw
  have h := hreport.bind (k := fun _ _ => []) fun _ => hnext
  rw [Frame.after_nil, thereafter, report_eq_done hw] at h
  exact h

theorem Reports.enter {toplevel : ToplevelId} (hw : w.store.IsMemory) :
  Reports [] 0 (enter c toplevel) w
  := nothing hw.enter rfl

theorem Reports.load (hw : w.store.IsMemory) :
  Reports [] 0 (load c site args) w
  := by
  unfold Run.load
  cases c.argumentHash? args with
  | none => exact done hw
  | some hash => exact nothing hw rfl

theorem Reports.loadIf {wanted : Bool} (hw : w.store.IsMemory) :
  Reports [] 0 (loadIf wanted c site args) w
  := by
  unfold Run.loadIf
  split
  · exact load hw
  · exact done hw

theorem Reports.record {value : Value} (hw : w.store.IsMemory) :
  Reports [] 0 (record c site args value) w
  := by
  unfold Run.record
  cases c.argumentHash? args with
  | none => exact done hw
  | some hash => exact nothing hw.record rfl

theorem Reports.invoke {f : Function} (hw : w.store.IsMemory) :
  Reports [] 0 (invoke c f args) w
  := nothing hw rfl

end Run

/-! ### Functions of the interpreter -/

namespace Interpreter

open Run (Reports)

variable {c : Context} {scope : Scope} {w : World}

/-- The reports of several places are made one after another. -/
theorem reportPattern_reports {executed : Bool} (reports : List (Place × Value))
    (hw : w.store.IsMemory) :
  Reports [] (Multiset.ofList (reports.map fun report => (report.1, ⟨report.2, executed⟩)))
    (reportPattern c executed (Step.entries reports)) w
  := by
  induction reports generalizing w with
  | nil => exact Reports.done hw
  | cons report rest ih =>
    rw [List.map_cons, ← Multiset.cons_coe]
    exact Reports.afterReport report.1 hw fun _ => ih

/-- A frame that is accountable is accounted for by itself. -/
theorem Accounts.single {t : Frame} (ht : t.IsAccountable) (hw : t.world.store.IsMemory) :
  Accounts [t] 0 t.Ends t.world t.leaves
  where
  memory := ht.memory
  reported := by
    rw [ht.reported, ← Frame.reports_eq, ← Multiset.cons_coe, Multiset.cons_bind]
    simp
  called := List.forall_mem_singleton.mpr ⟨hw, fun hended => hended⟩

/-! ### Reports of steps -/

open Interpreter.Frame (thereafter reportsOf)

variable {fuel : Nat} {α : Type}

/-- The reports of a tree, as far as its run comes. -/
def Step.reports (fuel : Nat) (w : World) : Step c α → Multiset Report
  | done _ | fault _ => 0
  | call activation next =>
    thereafter (activation.run fuel) w fun result w => (next result).reports fuel w
  | attempt activation next =>
    thereafter (Run.caught (activation.run fuel)) w fun result w =>
      (next result).reports fuel w
  | report executed _ reports next =>
    Multiset.ofList (reports.map fun report => (report.1, ⟨report.2, executed⟩))
      + thereafter (reportPattern c executed (entries reports)) w fun _ w =>
        next.reports fuel w
  | enter toplevel next =>
    thereafter (Run.enter c toplevel) w fun _ w => next.reports fuel w
  | load wanted site args next =>
    thereafter (Run.loadIf wanted c site args) w fun recorded w =>
      (next recorded).reports fuel w
  | record site args value next =>
    thereafter (Run.record c site args value) w fun _ w => next.reports fuel w
  | invoke f args _ next =>
    thereafter (Run.invoke c f args) w fun known w => (next known).reports fuel w

/-- What a tree says is accounted for by its calls and its reports. -/
theorem Step.accountable {step : Step c α}
    (hcalls : ∀ activation w, w.store.IsMemory → Frame.IsAccountable ⟨fuel, activation, w⟩)
    (hw : w.store.IsMemory) :
  Reports (step.calls fuel w) (step.reports fuel w) (step.run fuel) w
  := by
  have hcall (activation : Activation) {w : World} (hw : w.store.IsMemory) :
      Reports [⟨fuel, activation, w⟩] 0 (activation.run fuel) w := by
    have h := Accounts.single (hcalls activation w hw) hw
    rwa [Frame.leaves, activation.leaves_eq] at h
  induction step generalizing w with
  | done value => exact .done hw
  | fault reason => exact .fault hw
  | call activation next ih => exact (hcall activation hw).thenOwn fun result _ => ih result
  | attempt activation next ih =>
    exact (hcall activation hw).caught.thenOwn fun result _ => ih result
  | report executed hexecuted reports next ih =>
    exact (reportPattern_reports reports hw).bind fun _ _ => ih
  | enter toplevel next ih => exact (Reports.enter hw).thenOwn fun _ _ => ih
  | load wanted site args next ih =>
    exact (Reports.loadIf hw).thenOwn fun recorded _ => ih recorded
  | record site args value next ih => exact (Reports.record hw).thenOwn fun _ _ => ih
  | invoke f args hallowed next ih => exact (Reports.invoke hw).thenOwn fun known _ => ih known

section

open Run (thereafter_eq_zero)

/-- A call that nothing follows reports nothing beside it. -/
theorem Step.reports_last {activation : Activation} :
  (Step.last activation : Step c _).reports fuel w = 0
  := thereafter_eq_zero fun _ _ => rfl

theorem takenStep_reports {other taken : Expr} :
  (takenStep c scope other taken).reports fuel w = 0
  := thereafter_eq_zero fun _ _ => Step.reports_last

/-- Nothing is reported after some reports. -/
theorem Step.reports_report {executed : Bool} {hexecuted : executed = true → c.onPath = true}
    {reports : List (Place × Value)} {next : Step c α}
    (h : ∀ w', next.reports fuel w' = 0) :
  (Step.report executed hexecuted reports next).reports fuel w
    = Multiset.ofList (reports.map fun report => (report.1, ⟨report.2, executed⟩))
  := by rw [Step.reports, thereafter_eq_zero fun _ w' => h w', add_zero]

theorem Step.reports_reportOne {place : Place} {value : Value} {result : α} :
  (Step.reportOne place value (.done result) : Step c α).reports fuel w
    = {(place, ⟨value, c.onPath⟩)}
  := reports_report fun _ => rfl

theorem Step.reports_patternReports {executed : Bool}
    {hexecuted : executed = true → c.onPath = true} {reports : List (NodeId × Value)}
    {activation : Activation} :
  (Step.report executed hexecuted (patternReports reports) (last activation)).reports fuel w
    = Frame.patternReports executed reports
  := by
  rw [reports_report fun _ => reports_last, patternReports, List.map_map]
  rfl

theorem Step.reports_ite {p : Prop} [Decidable p] {step other : Step c α}
    (hstep : step.reports fuel w = 0) (hother : other.reports fuel w = 0) :
  (if p then step else other).reports fuel w = 0
  := by
  split
  · exact hstep
  · exact hother

/-- Nothing is reported after a call. -/
theorem Step.reports_call {activation : Activation} {next : activation.Result → Step c α}
    (h : ∀ result w', (next result).reports fuel w' = 0) :
  (Step.call activation next).reports fuel w = 0
  := thereafter_eq_zero h

/-- What a node reports is what its tree reports. -/
theorem nodeReports_eq (e : Expr) :
  reportsOf fuel w (.evalNode c scope e) = (nodeStep c scope e).reports fuel w
  := by
  cases e with
  | blank | integer | float | bool | null | string | functionValue => rfl
  | character id text =>
    rw [nodeStep]
    cases Value.ofCharacter text <;> rfl
  | «variable» id name =>
    rw [nodeStep]
    cases Fields.get? name scope with
    | some value => rfl
    | none =>
      dsimp only
      split <;> rfl
  | letIn id name value body =>
    refine (Step.reports_call fun value w' => ?_).symm
    exact Step.reports_ite rfl Step.reports_last
  | list id items => exact (Step.reports_call fun result _ => by cases result <;> rfl).symm
  | record id fields => exact (Step.reports_call fun _ _ => rfl).symm
  | fieldAccess id object field =>
    exact (Step.reports_call fun value _ => by cases value <;> rfl).symm
  | lambda id parameters body =>
    rw [nodeStep, reportsOf]
    split
    · rw [Step.reports_report fun _ => rfl, Step.parameterReports, List.map_map]
      rfl
    · rfl
  | conditional id condition thenCase elseCase =>
    have hlook {activation : Activation} {result : activation.Result → Value} {w : World} :
        (Step.call activation fun value =>
          .call (.lookAt c scope elseCase) fun _ => .done (result value)
            : Step c Value).reports fuel w = 0 :=
      Step.reports_call fun _ _ => Step.reports_call fun _ _ => rfl
    refine (Step.reports_call fun condition w' => ?_).symm
    cases condition with
    | bool b =>
      cases b with
      | false => exact takenStep_reports
      | true => exact hlook
    | null => exact takenStep_reports
    | _ => exact hlook
  | featureFlag id condition oldCode newCode =>
    refine (thereafter_eq_zero fun condition w' => ?_).symm
    rcases condition with reason | value
    · exact takenStep_reports
    · cases value with
      | bool b => cases b <;> exact takenStep_reports
      | _ => exact takenStep_reports
  | constructor id name args =>
    unfold nodeStep
    dsimp only
    split
    · rfl
    · exact (Step.reports_call fun _ _ => rfl).symm
    · exact (Step.reports_call fun _ _ => rfl).symm
    · exact (Step.reports_call fun _ _ => rfl).symm
    · split <;> rfl
  | matchCases id scrutinee cases =>
    refine (Step.reports_call fun value _ => Step.reports_call fun chosen _ => ?_).symm
    cases chosen with
    | some result => rfl
    | none =>
      dsimp only
      split <;> rfl
  | apply id callee args position railUse =>
    cases position with
    | notInPipe =>
      refine (Step.reports_call fun _ _ => Step.reports_call fun _ _ => ?_).symm
      exact Step.reports_call fun _ _ => rfl
    | inPipe pipe =>
      refine Frame.thereafter_congr fun callee w => Frame.thereafter_congr fun values w => ?_
      exact Frame.thereafter_congr fun result w => Step.reports_reportOne.symm

/-- The application of a value reports nothing beside its calls. -/
theorem applyValueStep_reports (id : NodeId) (callee : Value) (args : List Value)
    (position : PipePosition) (railUse : RailUse) :
  (applyValueStep c id callee args position railUse).reports fuel w = 0
  := by
  unfold applyValueStep
  split
  · exact Step.reports_last
  · split
    · rfl
    · split <;> rfl

/-- The application of a function value reports nothing beside its calls. -/
theorem applyCallableStep_reports (id : NodeId) (f : Callable) (args : List Value)
    (position : PipePosition) (railUse : RailUse) :
  (applyCallableStep c id f args position railUse).reports fuel w = 0
  := by
  unfold applyCallableStep
  split
  · exact Step.reports_last
  · split
    · rfl
    · exact Step.reports_ite rfl Step.reports_last

/-- A call by name reports nothing beside its calls. -/
theorem callStep_reports (name : FunctionName) (id : NodeId) (args : List Value)
    (position : PipePosition) (railUse : RailUse) :
  (callStep c name id args position railUse).reports fuel w = 0
  := by
  unfold callStep
  split
  · rfl
  · split
    · split
      · exact thereafter_eq_zero fun _ _ => rfl
      · rfl
    · split
      · rfl
      · split
        · split <;> rfl
        · exact Step.reports_call fun _ _ => by cases railUse <;> rfl

/-- Carrying out a function reports nothing beside its calls. -/
theorem carryOutStep_reports (f : Function) (id : NodeId) (args : List Value) :
  (carryOutStep c f id args).reports fuel w = 0
  := by
  unfold carryOutStep
  split
  · exact Step.reports_call fun _ _ => rfl
  · split
    · rfl
    · split
      · rfl
      · exact Step.reports_call fun _ _ => rfl

/-- Carrying out a body reports nothing beside its calls. -/
theorem bodyStep_reports (f : Function) (toplevel : ToplevelId) (body : Expr)
    (site : CallSite) (args : List Value) :
  (bodyStep c f toplevel body site args).reports fuel w = 0
  := by
  refine thereafter_eq_zero fun _ _ => thereafter_eq_zero fun recorded _ => ?_
  cases recorded with
  | some result => exact thereafter_eq_zero fun _ _ => rfl
  | none => exact Step.reports_call fun _ _ => thereafter_eq_zero fun _ _ => rfl

/-- Carrying out a built-in reports nothing beside its calls. -/
theorem builtinStep_reports (f : Function) (b : Builtin) (site : CallSite)
    (args : List Value) :
  (builtinStep c f b site args).reports fuel w = 0
  := by
  refine thereafter_eq_zero fun recorded _ => ?_
  cases recorded with
  | some result => rfl
  | none =>
    dsimp only
    split
    · rfl
    · refine thereafter_eq_zero fun known _ => thereafter_eq_zero fun outcome _ => ?_
      dsimp only
      split
      · exact thereafter_eq_zero fun _ _ => rfl
      · rfl

/-- What a function of the interpreter reports is what its tree reports. -/
theorem Frame.reportsOf_eq (activation : Activation) :
  reportsOf fuel w activation = activation.step.reports fuel w
  := by
  cases activation with
  | eval c scope e => exact thereafter_congr fun _ _ => Step.reports_reportOne.symm
  | lookAt c scope e => exact (Step.reports_call fun _ _ => rfl).symm
  | evalNode c scope e => exact nodeReports_eq e
  | evalArgs c scope es =>
    cases es with
    | nil => rfl
    | cons e rest =>
      exact (Step.reports_call fun _ _ => Step.reports_call fun _ _ => rfl).symm
  | evalItems c scope es =>
    cases es with
    | nil => rfl
    | cons e rest =>
      refine (Step.reports_call fun value _ => Step.reports_ite rfl ?_).symm
      exact Step.reports_call fun result _ => by cases result <;> rfl
  | evalFields c scope fields =>
    cases fields with
    | nil => rfl
    | cons field rest =>
      rw [Activation.step]
      refine (Step.reports_ite Step.reports_last ?_).symm
      exact Step.reports_call fun _ _ => Step.reports_call fun _ _ => rfl
  | evalCases c scope value cases chosen =>
    cases cases with
    | nil => rfl
    | cons case rest =>
      obtain ⟨pattern, body⟩ := case
      refine Eq.trans ?_ (apply_ite (Step.reports fuel w) _ _ _).symm
      refine ite_congr rfl (fun _ => ?_) fun _ => ?_
      · exact thereafter_congr fun _ _ => Step.reports_patternReports.symm
      · exact thereafter_congr fun _ _ => Step.reports_patternReports.symm
  | applyValue c id callee args position railUse => exact (applyValueStep_reports _ _ _ _ _).symm
  | applyCallable c id f args position railUse =>
    exact (applyCallableStep_reports _ _ _ _ _).symm
  | call c name id args position railUse => exact (callStep_reports _ _ _ _ _).symm
  | carryOut c f id args => exact (carryOutStep_reports _ _ _).symm
  | carryOutBody c f toplevel body site args => exact (bodyStep_reports _ _ _ _ _).symm
  | carryOutBuiltin c f b site args => exact (builtinStep_reports _ _ _ _).symm
  | runSteps c caller steps =>
    cases steps with
    | finish | fail => rfl
    | apply f args position railUse next =>
      refine (thereafter_eq_zero fun value _ => ?_).symm
      exact Step.reports_last

end

/-! ### Frames -/

namespace Frame

/-- A frame is accountable if its run is accounted for. -/
theorem isAccountable_mk {activation : Activation} :
  IsAccountable ⟨fuel, activation, w⟩
    ↔ Reports (calls ⟨fuel, activation, w⟩) (ownReports ⟨fuel, activation, w⟩)
        (activation.run fuel) w
  := by
  rw [IsAccountable, leaves, activation.leaves_eq]
  rfl

/-- With a store in memory, every frame is accounted for by its calls and what it reports
itself. -/
theorem isAccountable (s : Frame) (hs : s.world.store.IsMemory) :
  s.IsAccountable
  := by
  obtain ⟨fuel, activation, w⟩ := s
  induction fuel generalizing activation w with
  | zero =>
    rw [isAccountable_mk, activation.run_zero]
    exact Reports.outOfFuel hs
  | succ fuel ih =>
    rw [isAccountable_mk, activation.run_succ, calls, callsOf_eq, ownReports, reportsOf_eq]
    exact Step.accountable ih hs

/-- With a store in memory, what is reported during a frame is what the frames that it
reaches report. -/
theorem reported_leaves (s : Frame) (hs : s.world.store.IsMemory) :
  (s.leaves.reported : Multiset (NodeId × LiveValue))
    = s.reports.map Report.entry + s.world.reported
  := by
  rw [(s.isAccountable hs).reported, ← reports_eq]

/-- What a frame with a store in memory reaches has it there too, and does not lack fuel if
the frame does not. -/
theorem Reaches.ends {s t : Frame} (h : s.Reaches t) (hs : s.world.store.IsMemory) :
  t.world.store.IsMemory ∧ (s.Ends → t.Ends)
  := by
  induction h with
  | refl s => exact ⟨hs, fun hended => hended⟩
  | @step s t u hcall _ ih =>
    obtain ⟨ht, hended⟩ := (s.isAccountable hs).called t hcall
    obtain ⟨hu, hends⟩ := ih ht
    exact ⟨hu, fun h => hends (hended h)⟩

end Frame

end Interpreter

end LiveExpr
