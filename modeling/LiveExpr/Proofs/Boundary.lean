import LiveExpr.Proofs.Kinds
import LiveExpr.Proofs.Reached

/-!
# Function boundaries

The error rail ends with the body of a function: only one rail is taken off there, but rails
do not stand on rails anywhere in a run, and none is recorded as the result of a function
that is written in the language. Main statement: `isErrorRail_call`.
-/

namespace LiveExpr

namespace Value

/-- Whether no fake value stands directly in a record, an option or a result, and no rail
directly in a list or on a rail. -/
def IsTidy : Value → Prop
  | .list items => ∀ item ∈ items, item.isErrorRail = false
  | .record fields => Fields.All (fun value => value.isFake = false) fields
  | .just value | .ok value | .error value => value.isFake = false
  | .errorRail value => value.isErrorRail = false
  | _ => True

theorem allowsBuilding_isTidy :
  AllowsBuilding IsTidy
  where
  plain {value} hatom _ _ := by cases value <;> trivial
  list h := h
  record h := h
  just h := h
  ok h := h
  error h := h
  rail {value} h := by cases value <;> first | rfl | cases h
  option {fields _ _} hrecord hvalue := by
    have hfields : Fields.All (fun value : Value => value.isFake = false) fields := hrecord
    exact hfields.get? hvalue
  insert {fields _ _} hrecord hvalue := by
    have hfields : Fields.All (fun value : Value => value.isFake = false) fields := hrecord
    exact hfields.insert hvalue

/-- What a tidy value leaves off its rail is not on a rail. -/
theorem isErrorRail_offRail {value : Value} (h : value.IsTidy) :
  value.offRail.isErrorRail = false
  := by
  cases value <;> first | rfl | exact h

end Value

namespace Interpreter

open Run (Keeps)
open Value (IsTidy)

/-- A value that may be the result of a function written in the language: tidy at every
depth, and not on the error rail. -/
def IsResult (value : Value) : Prop :=
  value.Every IsTidy ∧ value.isErrorRail = false

/-- The regime of runs in which all values are tidy, and no rail is recorded as the result
of a function written in the language. -/
def tidiness (fs : List Function) : Regime where
  context c := c.registry = Stdlib.registry.addAll fs
  entered c f site := c.registry = Stdlib.registry.addAll fs ∧ site.name = f.name
    ∧ Assoc.get? f.name c.registry = some f
  node _ _ := True
  place _ _ := True
  kind := Value.Every IsTidy
  bound := Value.Every IsTidy
  world w := ∀ site hash value, w.store.load? site hash = some value →
    value.Every IsTidy
      ∧ ((Stdlib.registry.addAll fs).IsWritten site.name → value.isErrorRail = false)
  faults := True

variable {fs : List Function} {c : Context} {fuel : Nat}

/-- What the body of a function gives, or what is recorded for it, is a result. -/
theorem isResult_carryOutBody {f : Function} {origin : Origin} {toplevel : ToplevelId}
    {body : Expr} {site : CallSite} {args : List Value}
    (hentered : (tidiness fs).entered c f site)
    (hbody : f.implementation = .written origin toplevel body)
    (heval : (tidiness fs).Keeps (Value.Every IsTidy) (eval fuel (c.inToplevel toplevel)
      (Fields.ofPairs ((f.parameters.map Parameter.name).zip args)) body)) :
  (tidiness fs).Keeps IsResult (carryOutBody (fuel + 1) c f toplevel body site args)
  := by
  obtain ⟨hregistry, hname, hf⟩ := hentered
  have hwritten : (Stdlib.registry.addAll fs).IsWritten site.name := by
    rw [hname]
    refine ⟨f, hregistry ▸ hf, ?_⟩
    rw [Function.isBuiltin, hbody]
  apply carryOutBody_keeps Run.enter_recalls
  · apply Run.load_recalls.mono (fun hfaults => hfaults)
    intro found hfound value hvalue
    obtain ⟨htidy, hrail⟩ := hfound value hvalue
    exact ⟨htidy, hrail hwritten⟩
  · exact fun value hvalue => Run.record_recalls ⟨hvalue.1, fun _ => hvalue.2⟩
  · apply heval.mono (fun hfaults => hfaults)
    intro value hvalue
    exact ⟨Value.AllowsBuilding.every_offRail hvalue, Value.isErrorRail_offRail hvalue.self⟩

/-! ### Runs -/

theorem tidiness_isLawful (hfs : ∀ f ∈ fs, f.isBuiltin = false) :
  (tidiness fs).IsLawful
  where
  toClosedValues :=
    Value.allowsBuilding_isTidy.closedValues (fun _ => trivial) fun _ => trivial
  id _ := trivial
  pattern _ _ _ _ _ := trivial
  parameter _ _ _ := trivial
  named _ := Value.every_of_isAtom rfl trivial
  lambda _ hscope := Value.every_lambda.mpr ⟨trivial, hscope⟩
  captured hlambda := (Value.every_lambda.mp hlambda).2
  applied _ _ _ _ := trivial
  lookAside hc := hc
  enters {c name f id} hc _ hf _ := by
    refine ⟨hc, rfl, ?_⟩
    have hregistry : c.registry = Stdlib.registry.addAll fs := hc
    rw [hregistry] at hf
    have hname := Registry.name_of_get?_addAll Stdlib.name_of_get? hf
    change Assoc.get? f.name c.registry = some f
    rw [hregistry, hname, hf]
  inside hentered := hentered.1
  inToplevel hentered _ := ⟨hentered.1, fun _ _ => trivial⟩
  builtin hentered hb hargs hreal := by
    obtain ⟨hregistry, -, hf⟩ := hentered
    rw [hregistry] at hf
    have hmem := Stdlib.mem_contents_of_builtin hfs hf hb
    exact Value.allowsBuilding_isTidy.contents_stay hmem hb hargs hreal
  report _ _ _ := Run.report_recalls
  enter _ := Run.enter_recalls
  load _ := Run.load_recalls.mono (fun hfaults => hfaults) fun _ hfound value hvalue =>
    (hfound value hvalue).1
  invoke _ _ := Run.invoke_recalls
  record hentered hb _ hvalue := by
    obtain ⟨hregistry, hname, hf⟩ := hentered
    apply Run.record_recalls
    use hvalue
    rw [hname, ← hregistry]
    exact fun hwritten => absurd hwritten (Registry.not_isWritten_of_builtin hf hb)
  body hentered hbody _ heval :=
    (isResult_carryOutBody hentered hbody heval).mono (fun hfaults => hfaults)
      fun _ hvalue => hvalue.1

/-- A function written in the language, carried out, gives no value on the error rail. -/
theorem isErrorRail_carryOut (hfs : ∀ f ∈ fs, f.isBuiltin = false) {f : Function}
    (hwritten : f.isBuiltin = false) {id : NodeId} {args : List Value}
    (hcarry : (tidiness fs).Admits (.carryOut c f id args)) :
  (tidiness fs).Keeps (fun value => value.isErrorRail = false) (carryOut fuel c f id args)
  := by
  have h := tidiness_isLawful hfs
  cases fuel with
  | zero => exact Keeps.outOfFuel
  | succ fuel =>
    obtain ⟨hc, -, ⟨name, hname, hf⟩, hargs, hreal⟩ := hcarry
    rw [carryOut]
    split
    · next hb =>
      rw [Function.isBuiltin, hb] at hwritten
      cases hwritten
    · next toplevel body hbody =>
      split
      · exact Keeps.done rfl
      · next hunder =>
        split
        · exact Keeps.done rfl
        · have hentered := h.entered_body id hc hname hf hunder
          have hresult : (tidiness fs).Keeps IsResult
              (carryOutBody fuel (c.inCall f.name id) f toplevel body (c.site f.name id) args) := by
            cases fuel with
            | zero => exact Keeps.outOfFuel
            | succ fuel =>
              apply isResult_carryOutBody hentered hbody
              exact (h.kept fuel).eval ⟨hc, bodyScope_bound h _ hargs hreal, fun _ _ => trivial⟩
          apply Keeps.bind hresult
          intro result hresult
          apply Keeps.done
          unfold checkedResult
          split
          · exact hresult.2
          · rfl

/-- A call of a function written in the language that is not made for the rail, with no
argument on it, gives no value on the error rail. -/
theorem isErrorRail_of_call (hfs : ∀ f ∈ fs, f.isBuiltin = false) (fuel : Nat)
    {name : FunctionName} {id : NodeId} {args : List Value} {position : PipePosition}
    (hcall : (tidiness fs).Admits (.call c name id args position .noRail))
    (hwritten : (Stdlib.registry.addAll fs).IsWritten name)
    (hrails : ∀ arg ∈ args, arg.isErrorRail = false) :
  (tidiness fs).Keeps (fun value => value.isErrorRail = false)
    (call fuel c name id args position .noRail)
  := by
  obtain ⟨hc, -, hname, hargs⟩ := hcall
  cases fuel with
  | zero => exact Keeps.outOfFuel
  | succ fuel =>
    obtain ⟨f, hf, hwritten⟩ := hwritten
    have hregistry : c.registry = Stdlib.registry.addAll fs := hc
    have hnone : args.find? Value.isErrorRail = none := by simpa using hrails
    rw [call, hnone, hregistry, hf]
    dsimp only
    split
    · exact Keeps.done rfl
    · split
      · next value hvalue =>
        have hvalue := hrails value (List.mem_of_find?_eq_some hvalue)
        split
        · apply Keeps.done
          cases args with
          | nil => rfl
          | cons arg _ => exact hrails arg List.mem_cons_self
        · exact Keeps.done hvalue
      · next hbad =>
        have hreal := Value.isFake_of_find? hnone hbad
        rw [← hregistry] at hf
        apply Keeps.bind (isErrorRail_carryOut hfs hwritten
          ⟨hc, trivial, ⟨name, hname, hf⟩, hargs, hreal⟩)
        intro result hresult
        exact Keeps.done hresult

/-- In a run that starts without recorded results and with tidy values in scope, a call of
a function written in the language that is not made for the rail, with no argument on it,
gives no value on the error rail. -/
theorem isErrorRail_call (hfs : ∀ f ∈ fs, f.isBuiltin = false)
    (hc : c.registry = Stdlib.registry.addAll fs) {scope : Scope}
    (hscope : scope.All (Value.Every IsTidy)) {w : World}
    (hempty : ∀ site hash, w.store.load? site hash = none) {e : Expr} {t : Frame}
    (hreaches : Frame.Reaches ⟨fuel, .eval c scope e, w⟩ t) {c' : Context}
    {name : FunctionName} {id : NodeId} {args : List Value} {position : PipePosition}
    (ht : t.activation = .call c' name id args position .noRail)
    (hwritten : c.registry.IsWritten name)
    (hrails : ∀ arg ∈ args, arg.isErrorRail = false) {value : Value} {w' : World}
    (hrun : call t.fuel c' name id args position .noRail t.world = (.done value, w')) :
  value.isErrorRail = false
  := by
  have hadmits : (tidiness fs).Admits (.eval c scope e) := ⟨hc, hscope, fun _ _ => trivial⟩
  have hworld : (tidiness fs).world w := by
    intro site hash value hvalue
    rw [hempty] at hvalue
    cases hvalue
  obtain ⟨hadmits, hworld⟩ := (tidiness_isLawful hfs).reached hreaches hadmits hworld
  rw [ht] at hadmits
  rw [hc] at hwritten
  have h := (isErrorRail_of_call hfs t.fuel hadmits hwritten hrails t.world hworld).2
  rw [hrun] at h
  exact h

/-- A function whose body puts a failure on the error rail. -/
def lookUp : Function where
  name := .user "lookUp"
  parameters := []
  returnType := .any
  description := "Looks up a key that is missing"
  previewability := .pure
  deprecation := .current
  implementation := .written .user 20
    (.list 21 [.apply 22 (.functionValue 23 (.stdlib "Dict" "get" 2))
      [.record 24 [], .string 25 "a"] .notInPipe .rail])

/-- A call of the function. -/
def lookingUp : Expr :=
  .apply 1 (.functionValue 2 lookUp.name) [] .notInPipe .noRail

/-- The failure comes off the rail where the function ends. -/
theorem isErrorRail_call_lookUp :
  ∃ t : Frame, ∃ c : Context, ∃ w' : World,
    Frame.Reaches ⟨20, .eval (.start .real 0 0 (Stdlib.registry.addAll [lookUp]) []) []
        lookingUp, .fresh ⟨0, 0⟩⟩ t
      ∧ t.activation = .call c lookUp.name 1 [] .notInPipe .noRail
      ∧ call t.fuel c lookUp.name 1 [] .notInPipe .noRail t.world = (.done .nothing, w')
      ∧ Value.nothing.isErrorRail = false
  := by
  let c : Context := .start .real 0 0 (Stdlib.registry.addAll [lookUp]) []
  let node : Frame := ⟨19, .evalNode c [] lookingUp, .fresh ⟨0, 0⟩⟩
  have hlength : node.calls.length = 3 := rfl
  let application : Frame := node.calls.get ⟨2, by rw [hlength]; decide⟩
  let t : Frame := ⟨16, .call c lookUp.name 1 [] .notInPipe .noRail, application.world⟩
  have hreaches : Frame.Reaches ⟨20, .eval c [] lookingUp, .fresh ⟨0, 0⟩⟩ t := by
    apply Frame.Reaches.step (List.mem_singleton.mpr rfl : node ∈ Frame.calls _)
    apply Frame.Reaches.step (List.get_mem _ _ : application ∈ node.calls)
    apply Frame.Reaches.step List.mem_cons_self
    exact Frame.Reaches.step List.mem_cons_self (.refl t)
  have hfs : ∀ f ∈ [lookUp], f.isBuiltin = false := by simp [lookUp, Function.isBuiltin]
  have hwritten : c.registry.IsWritten lookUp.name := ⟨lookUp, rfl, rfl⟩
  have hempty : ∀ site hash, (World.fresh ⟨0, 0⟩).store.load? site hash = none :=
    fun _ _ => rfl
  refine ⟨t, c, _, hreaches, rfl, rfl, ?_⟩
  exact isErrorRail_call hfs rfl Fields.All.nil hempty hreaches rfl hwritten
    (List.forall_mem_nil _) (Prod.ext rfl rfl)

end Interpreter

end LiveExpr
