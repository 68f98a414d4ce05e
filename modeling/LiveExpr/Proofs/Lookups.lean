import LiveExpr.Proofs.Dispatch
import LiveExpr.Proofs.Fuel
import LiveExpr.Proofs.Syllables

/-!
# Looking up a field

A field of a record is read by an access to it or by a call of the library's look-up.  The
access takes the name as it is written, the look-up its normal form, since a text is
normalized where it becomes a value, and a name is not.  Main statement:
`evaluates_fieldAccess_and_lookUp`.
-/

namespace LiveExpr

/-- A call of the library's look-up, in what an expression evaluates to. -/
def Expr.lookUp (id callee literal : NodeId) (e : Expr) (name : String) : Expr :=
  .apply id (.functionValue callee (.stdlib "Dict" "get" 0)) [e, .string literal name] .notInPipe
    .noRail

/-! ### Worlds that look alike but for their logs and live values -/

/-- Whether two worlds differ in their logs and live values alone; the nodes after whose
report their stores fail are given. -/
structure World.Resembles (fails : NodeId → Bool) (w w' : World) : Prop where
  calls : w.calls = w'.calls
  turns : w.turns = w'.turns
  now : w.now = w'.now
  failsAfter : ∀ id, w.store.failsAfter id = fails id
  failsAfter' : ∀ id, w'.store.failsAfter id = fails id
  load? : ∀ site hash, w.store.load? site hash = w'.store.load? site hash
  keepsResults : w.store.keepsResults = w'.store.keepsResults

namespace World

variable {fails : NodeId → Bool} {w : World}

theorem Resembles.refl (hfails : ∀ id, w.store.failsAfter id = fails id) :
  w.Resembles fails w
  := ⟨rfl, rfl, rfl, hfails, hfails, fun _ _ => rfl, rfl⟩

/-- The world after the report of a node. -/
def told (w : World) (c : Context) (executed : Bool) (id : NodeId) (value : Value) : World :=
  { w with
    store := w.store.report executed id value
    log := (c, .report executed id value) :: w.log }

/-- A report leaves a world that resembles the one before. -/
theorem resembles_told (hfails : ∀ id, w.store.failsAfter id = fails id) (c : Context)
    (executed : Bool) (id : NodeId) (value : Value) :
  w.Resembles fails (w.told c executed id value)
  where
  calls := rfl
  turns := rfl
  now := rfl
  failsAfter := hfails
  failsAfter' other := TraceStore.failsAfter_report.trans (hfails other)
  load? _ _ := TraceStore.load?_report.symm
  keepsResults := TraceStore.keepsResults_report.symm

end World

namespace Run

variable {fails : NodeId → Bool} {c : Context} {site : CallSite} {args : List Value}

theorem report_eq_told {executed : Bool} {id : NodeId} {value : Value} {w : World}
    (h : w.store.failsAfter id = false) :
  report c executed id value w = (.done (), w.told c executed id value)
  := by
  rw [report_eq, h]
  rfl

theorem report_resembling {executed : Bool} {id : NodeId} {value : Value} :
  Simulates (World.Resembles fails) (report c executed id value) (report c executed id value)
  := by
  intro w w' hw
  rw [report_eq, report_eq, hw.failsAfter, hw.failsAfter']
  refine ⟨rfl, hw.calls, hw.turns, hw.now, ?_, ?_, ?_, ?_⟩
  · exact fun other => TraceStore.failsAfter_report.trans (hw.failsAfter other)
  · exact fun other => TraceStore.failsAfter_report.trans (hw.failsAfter' other)
  · intro site hash
    exact TraceStore.load?_report.trans ((hw.load? site hash).trans TraceStore.load?_report.symm)
  · exact TraceStore.keepsResults_report.trans
      (hw.keepsResults.trans TraceStore.keepsResults_report.symm)

theorem enter_resembling {toplevel : ToplevelId} :
  Simulates (World.Resembles fails) (enter c toplevel) (enter c toplevel)
  := by
  intro w w' hw
  refine ⟨rfl, hw.calls, hw.turns, hw.now, ?_, ?_, ?_, ?_⟩
  · exact fun other => TraceStore.failsAfter_enter.trans (hw.failsAfter other)
  · exact fun other => TraceStore.failsAfter_enter.trans (hw.failsAfter' other)
  · intro site hash
    exact TraceStore.load?_enter.trans ((hw.load? site hash).trans TraceStore.load?_enter.symm)
  · exact TraceStore.keepsResults_enter.trans
      (hw.keepsResults.trans TraceStore.keepsResults_enter.symm)

theorem load_resembling :
  Simulates (World.Resembles fails) (load c site args) (load c site args)
  := by
  intro w w' hw
  unfold load
  cases c.argumentHash? args with
  | none => exact ⟨rfl, hw⟩
  | some hash =>
    have hfound := hw.load? site hash
    exact ⟨congrArg Outcome.done hfound, hw.calls, hw.turns, hw.now, hw.failsAfter,
      hw.failsAfter', hw.load?, hw.keepsResults⟩

theorem record_resembling {value : Value} :
  Simulates (World.Resembles fails) (record c site args value) (record c site args value)
  := by
  intro w w' hw
  unfold record
  cases c.argumentHash? args with
  | none => exact ⟨rfl, hw⟩
  | some hash =>
    refine ⟨rfl, hw.calls, hw.turns, hw.now, ?_, ?_, ?_, ?_⟩
    · exact fun other => TraceStore.failsAfter_record.trans (hw.failsAfter other)
    · exact fun other => TraceStore.failsAfter_record.trans (hw.failsAfter' other)
    · intro site' hash'
      dsimp only
      rw [TraceStore.load?_record, TraceStore.load?_record, hw.load?, hw.keepsResults]
    · exact TraceStore.keepsResults_record.trans
        (hw.keepsResults.trans TraceStore.keepsResults_record.symm)

theorem invoke_resembling {f : Function} :
  Simulates (World.Resembles fails) (invoke c f args) (invoke c f args)
  := by
  intro w w' hw
  rw [invoke, invoke, hw.calls, hw.turns, hw.now]
  exact ⟨rfl, rfl, rfl, rfl, hw.failsAfter, hw.failsAfter', hw.load?, hw.keepsResults⟩

theorem isCongruence_resembling (fails : NodeId → Bool) (version : UInt32) :
  IsCongruence version version (Simulates (World.Resembles fails))
  where
  done := .done
  fault := .fault
  bind := .bind
  caught := .caught
  report := report_resembling
  enter := enter_resembling
  load := load_resembling
  record := record_resembling
  invoke := invoke_resembling

end Run

namespace Interpreter

variable {fails : NodeId → Bool} {c : Context} {scope : Scope} {e : Expr} {value : Value}
  {w w' w₁ : World}

/-- Where a world resembles another, an expression has the same value. -/
theorem Evaluates.resembling (h : Evaluates c scope e w value w')
    (hw : w.Resembles fails w₁) :
  ∃ w₁', Evaluates c scope e w₁ value w₁' ∧ w'.Resembles fails w₁'
  := by
  obtain ⟨fuel, hrun⟩ := h
  have hsimulates : Run.Simulates (World.Resembles fails) (eval fuel c scope e)
      (eval fuel c scope e) :=
    Activation.simulates (Run.isCongruence_resembling fails c.hashVersion) fuel
      (.eval c scope e)
  obtain ⟨houtcome, hworlds⟩ := hsimulates w w₁ hw
  rw [hrun] at houtcome hworlds
  exact ⟨(eval fuel c scope e w₁).2, ⟨fuel, Prod.ext houtcome.symm rfl⟩, hworlds⟩

/-- Evaluation does not change after which reports the store fails. -/
theorem Evaluates.failsAfter (h : Evaluates c scope e w value w') (id : NodeId) :
  w'.store.failsAfter id = w.store.failsAfter id
  := by
  obtain ⟨w₁, -, hworlds⟩ := h.resembling (.refl fun _ => rfl)
  exact hworlds.failsAfter id

/-! ### Nodes -/

theorem eval_of_evalNode {fuel : Nat} (h : evalNode fuel c scope e w = (.done value, w'))
    (hstore : w'.store.failsAfter e.id = false) :
  eval (fuel + 1) c scope e w = (.done value, w'.told c c.onPath e.id value)
  := by
  rw [eval, Run.bind_of_done h, Run.bind_of_done (Run.report_eq_told hstore)]
  rfl

/-- An access takes the field of the name as it is written. -/
theorem evaluates_fieldAccess {fields : Fields Value}
    (h : Evaluates c scope e w (.record fields) w') (id : NodeId)
    (hstore : w.store.failsAfter id = false) (name : String) :
  ∃ w'', Evaluates c scope (.fieldAccess id e name) w ((Fields.get? name fields).getD .null) w''
  := by
  have hstore' : w'.store.failsAfter id = false := (h.failsAfter id).trans hstore
  obtain ⟨fuel, hrun⟩ := h
  refine ⟨_, fuel + 2, eval_of_evalNode ?_ hstore'⟩
  rw [evalNode, Run.bind_of_done hrun]
  rfl

/-! ### The look-up of the library -/

/-- The library's look-up that gives null for a missing key. -/
theorem exists_getOrNull :
  ∃ f ∈ Stdlib.contents, f.name = .stdlib "Dict" "get" 0 ∧ f.parameters.length = 2
    ∧ f.previewability = .pure ∧ f.returnType = .any
    ∧ f.implementation = .builtin ⟨fun _ args => .finish (Stdlib.getOrNull args), false⟩
  := by
  have hlength : 8 < Stdlib.contents.length := by decide
  exact ⟨Stdlib.contents.get ⟨8, hlength⟩, List.get_mem _ _, rfl, rfl, rfl, rfl, rfl⟩

/-- For real, the look-up takes the field of the key, and is carried out in every store. -/
theorem call_getOrNull (hmode : c.mode = .real) (hlibrary : c.registry.HoldsLibrary)
    (fields : Fields Value) (key : String) (id : NodeId) (fuel : Nat) (w : World) :
  ∃ w', call (fuel + 4) c (.stdlib "Dict" "get" 0) id [.record fields, .str key] .notInPipe
      .noRail w = (.done ((Fields.get? key fields).getD .null), w') ∧ w'.store = w.store
  := by
  obtain ⟨f, hf, hname, hlength, hpure, hreturn, himplementation⟩ := exists_getOrNull
  have hget : Assoc.get? (.stdlib "Dict" "get" 0) c.registry = some f :=
    hname ▸ hlibrary.library f hf
  have hbuiltin : ∃ w', carryOutBuiltin (fuel + 2) (c.inCall f.name id) f
      ⟨fun _ args => .finish (Stdlib.getOrNull args), false⟩ (c.site f.name id)
      [.record fields, .str key] w = (.done ((Fields.get? key fields).getD .null), w')
        ∧ w'.store = w.store := by
    have hreplays : (c.inCall f.name id).mode.replaysResults = false := by
      change c.mode.replaysResults = false
      rw [hmode]
      rfl
    rw [carryOutBuiltin, hpure, hreplays, Bool.false_and]
    exact ⟨_, rfl, rfl⟩
  obtain ⟨w', hbuiltin, hstore⟩ := hbuiltin
  refine ⟨w', ?_, hstore⟩
  have hreal : ∀ arg ∈ [Value.record fields, .str key], arg.isFake = false := by
    simp [Value.isFake]
  have hlen : [Value.record fields, .str key].length = f.parameters.length := hlength.symm
  rw [← hname] at hget ⊢
  rw [call_real hget hlen hreal, carryOut_builtin himplementation]
  apply Run.bind_of_done
  rw [Run.bind_of_done hbuiltin, checkedResult, hreturn, Typing.unify_any]
  rfl

/-- A look-up takes the field of the normal form of the name. -/
theorem evaluates_lookUp (hmode : c.mode = .real) (hlibrary : c.registry.HoldsLibrary)
    {fields : Fields Value} (h : Evaluates c scope e w (.record fields) w')
    (id callee literal : NodeId)
    (hstore : ∀ i ∈ [id, callee, literal], w.store.failsAfter i = false) (name : String) :
  ∃ w'', Evaluates c scope (.lookUp id callee literal e name) w
    ((Fields.get? (Text.nfc name) fields).getD .null) w''
  := by
  obtain ⟨hid, hcallee, hliteral⟩ : _ ∧ _ ∧ _ := by simpa using hstore
  let get : FunctionName := .stdlib "Dict" "get" 0
  -- The callee is reported first, so that the record is evaluated in a world with one more
  -- report than the world of the hypothesis.
  let w₁ : World := w.told c c.onPath callee (.named get)
  obtain ⟨w₂, he, hworlds⟩ := h.resembling
    (World.resembles_told (fun _ => rfl) c c.onPath callee (.named get))
  obtain ⟨fuel, hrun⟩ := he.from_fuel
  let w₃ : World := w₂.told c c.onPath literal (.ofText name)
  obtain ⟨w₄, hcall, hstore₄⟩ :=
    call_getOrNull hmode hlibrary fields (Text.nfc name) id (fuel + 2) w₃
  have hfunction : eval (fuel + 8) c scope (.functionValue callee get) w
      = (.done (.named get), w₁) := eval_of_evalNode rfl hcallee
  have htext : eval (fuel + 6) c scope (.string literal name) w₂ = (.done (.ofText name), w₃) :=
    eval_of_evalNode rfl ((hworlds.failsAfter' literal).trans hliteral)
  have hargs : evalArgs (fuel + 8) c scope [e, .string literal name] w₁
      = (.done [.record fields, .ofText name], w₃) := by
    rw [evalArgs, Run.bind_of_done (hrun _ (by omega)), evalArgs]
    apply Run.bind_of_done
    rw [Run.bind_of_done htext]
    rfl
  have happly : applyValue (fuel + 8) c id (.named get) [.record fields, .ofText name] .notInPipe
      .noRail w₃ = (.done ((Fields.get? (Text.nfc name) fields).getD .null), w₄) := hcall
  have hnode : evalNode (fuel + 9) c scope (.lookUp id callee literal e name) w
      = (.done ((Fields.get? (Text.nfc name) fields).getD .null), w₄) := by
    rw [Expr.lookUp, evalNode, Run.bind_of_done hfunction, Run.bind_of_done hargs,
      Run.bind_of_done happly]
    rfl
  refine ⟨_, fuel + 10, eval_of_evalNode hnode ?_⟩
  rw [hstore₄]
  exact TraceStore.failsAfter_report.trans ((hworlds.failsAfter' id).trans hid)

/-! ### Both ways -/

/-- For real, an access to a field and the library's look-up take the fields of the name and
of its normal form, and the same field for a name in normal form, whatever evaluates to the
record. -/
theorem evaluates_fieldAccess_and_lookUp (hmode : c.mode = .real)
    (hlibrary : c.registry.HoldsLibrary) {fields : Fields Value}
    (h : Evaluates c scope e w (.record fields) w') (access id callee literal : NodeId)
    (hstore : ∀ i ∈ [access, id, callee, literal], w.store.failsAfter i = false)
    (name : String) :
  ∃ accessed lookedUp w₁ w₂, Evaluates c scope (.fieldAccess access e name) w accessed w₁
    ∧ Evaluates c scope (.lookUp id callee literal e name) w lookedUp w₂
    ∧ accessed = (Fields.get? name fields).getD .null
    ∧ lookedUp = (Fields.get? (Text.nfc name) fields).getD .null
    ∧ (Text.nfc name = name → accessed = lookedUp)
  := by
  obtain ⟨haccess, hothers⟩ := List.forall_mem_cons.mp hstore
  obtain ⟨w₁, haccessed⟩ := evaluates_fieldAccess h access haccess name
  obtain ⟨w₂, hlookedUp⟩ := evaluates_lookUp hmode hlibrary h id callee literal hothers name
  refine ⟨_, _, w₁, w₂, haccessed, hlookedUp, rfl, rfl, ?_⟩
  intro hname
  rw [hname]

/-- The context of a run for real with the standard library alone. -/
def plainly : Context :=
  .start .real 1 0 Stdlib.registry []

theorem holdsLibrary_plainly :
  plainly.registry.HoldsLibrary
  := Registry.holdsLibrary_addAll (List.forall_mem_nil _)

/-- A record with one field. -/
def labelled (name : String) : Expr :=
  .record 1 [(name, .integer 2 7)]

theorem evaluates_labelled {name : String} (hname : name ≠ "") :
  ∃ w, Evaluates plainly [] (labelled name) (.fresh ⟨0, 0⟩) (.record [(name, .int 7)]) w
  := by
  have hempty : ¬ name.isEmpty = true := by simpa using hname
  let w₁ : World := (World.fresh ⟨0, 0⟩).told plainly true 2 (.int 7)
  have hfields : evalFields 3 plainly [] [(name, .integer 2 7)] (.fresh ⟨0, 0⟩)
      = (.done [(name, .int 7)], w₁) := by
    rw [evalFields, if_neg hempty]
    rfl
  have hnode : evalNode 4 plainly [] (labelled name) (.fresh ⟨0, 0⟩)
      = (.done (.record [(name, .int 7)]), w₁) := by
    rw [labelled, evalNode, Run.bind_of_done hfields]
    rfl
  exact ⟨_, 5, eval_of_evalNode hnode rfl⟩

/-- The access and the look-up agree on a name in normal form. -/
theorem evaluates_fieldAccess_and_lookUp_labelled :
  ∃ value w₁ w₂, Text.nfc "a" = "a" ∧ value = .int 7
    ∧ Evaluates plainly [] (.fieldAccess 3 (labelled "a") "a") (.fresh ⟨0, 0⟩) value w₁
    ∧ Evaluates plainly [] (.lookUp 4 5 6 (labelled "a") "a") (.fresh ⟨0, 0⟩) value w₂
  := by
  have hnormal : Text.nfc "a" = "a" := by rfl
  obtain ⟨w, hrecord⟩ := evaluates_labelled (by decide : "a" ≠ "")
  obtain ⟨accessed, lookedUp, w₁, w₂, haccess, hlookUp, hvalue, -, hagree⟩ :=
    evaluates_fieldAccess_and_lookUp rfl holdsLibrary_plainly hrecord 3 4 5 6 (fun _ _ => rfl) "a"
  obtain rfl := hagree hnormal
  exact ⟨accessed, w₁, w₂, hnormal, hvalue, haccess, hlookUp⟩

/-- A field under the letters of a syllable is found by the access alone: the look-up takes
them for the syllable. -/
theorem fieldAccess_ne_lookUp_letters :
  ∃ name w w₁ w₂, name = String.ofList Text.letters ∧ name ≠ ""
    ∧ Evaluates plainly [] (labelled name) (.fresh ⟨0, 0⟩) (.record [(name, .int 7)]) w
    ∧ Evaluates plainly [] (.fieldAccess 3 (labelled name) name) (.fresh ⟨0, 0⟩) (.int 7) w₁
    ∧ Evaluates plainly [] (.lookUp 4 5 6 (labelled name) name) (.fresh ⟨0, 0⟩) .null w₂
  := by
  let name : String := String.ofList Text.letters
  have hname : name ≠ "" := by decide
  have hother : name ≠ Text.nfc name := by
    rw [Text.nfc_letters]
    decide
  obtain ⟨w, hrecord⟩ := evaluates_labelled hname
  obtain ⟨w₁, haccess⟩ := evaluates_fieldAccess hrecord 3 rfl name
  obtain ⟨w₂, hlookUp⟩ :=
    evaluates_lookUp rfl holdsLibrary_plainly hrecord 4 5 6 (fun _ _ => rfl) name
  rw [Fields.get?, if_pos rfl] at haccess
  rw [Fields.get?, if_neg hother] at hlookUp
  exact ⟨name, w, w₁, w₂, rfl, hname, hrecord, haccess, hlookUp⟩

end Interpreter

end LiveExpr
