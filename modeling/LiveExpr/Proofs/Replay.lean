import LiveExpr.Proofs.Invariance
import LiveExpr.Proofs.Nodes
import LiveExpr.Proofs.Patterns
import LiveExpr.Proofs.Replaying

/-!
# Record and replay

A main expression whose calls are of known functions is run once, and then previewed on
the store that the run left: the preview has the same value, evaluates no body of a
function and carries out no built-in but the plain ones that the expression calls. Main
statement: `eval_replayed`.
-/

namespace LiveExpr

/-- Whether no code of a function belongs to a toplevel. -/
def Registry.Avoids (registry : Registry) (m : ToplevelId) : Prop :=
  ∀ name f origin toplevel body, Assoc.get? name registry = some f →
    f.implementation = .written origin toplevel body → toplevel ≠ m

/-- Whether a name is that of a function written in the language or of a plain
built-in. -/
def Registry.Replays (registry : Registry) (name : FunctionName) : Prop :=
  ∃ f, Assoc.get? name registry = some f ∧ (f.isBuiltin = false ∨ f.IsPlain)

/-- Whether a value is no function value, or the name of a function that is replayed. -/
def Registry.ReplaysValue (registry : Registry) (value : Value) : Prop :=
  ∀ f, value.callable? = some f → ∃ name, f = .named name ∧ registry.Replays name

/-- Whether an event of the code of a toplevel does not report a function that is not
replayed for a callee, and is no comparison of what hides NaN. -/
def Event.IsSafe (m : ToplevelId) (registry : Registry) (calleeIds : List NodeId) :
    Context × Event → Prop
  | (c, .report _ id value) => c.toplevel = m → id ∈ calleeIds → registry.ReplaysValue value
  | (c, .invoke f args) => c.toplevel = m → Stdlib.comparesHiddenNaN f args = false
  | _ => True

/-- Whether a node is no function and calls directly only what is replayed. -/
structure Expr.IsReplayable (registry : Registry) (e : Expr) : Prop where
  notLambda : ∀ id parameters body, e ≠ .lambda id parameters body
  notFunction : ∀ id name, e ≠ .functionValue id name
  direct : ∀ name, e.directCallee? = some name → registry.Replays name

/-- The identifiers of the callees among some nodes that are not called directly. -/
def Expr.calleeIds (nodes : List Expr) : List NodeId :=
  nodes.filterMap calleeId?

/-- Whether a context is that of the main expression, outside of all calls. -/
structure Context.IsMain (m : ToplevelId) (registry : Registry) (c : Context) : Prop where
  toplevel : c.toplevel = m
  registry : c.registry = registry
  stack : c.stack = []
  version : c.hashVersion ∈ Hashable.supportedVersions

/-- The context with the same code in preview, where maps have other things in common. -/
def Context.inPreview (c : Context) (sharing : Mode → Nat → Sharing) : Context :=
  { c with mode := .preview, sharing }

/-- Whether nodes can be replayed, with distinct calls. -/
structure Fits (registry : Registry) (calleeIds : List NodeId) (nodes : List Expr) :
    Prop where
  replayable : ∀ e ∈ nodes, e.IsReplayable registry
  callees : ∀ id ∈ Expr.calleeIds nodes, id ∈ calleeIds
  distinct : (Expr.callIds nodes).Nodup

/-- Whether code that is run for real finds its variables in scope. -/
def Sees (c : Context) (scope : Scope) (closed : List String → Bool) : Prop :=
  c.mode = .preview ∨ ∃ names, scope.Binds names ∧ closed names = true

namespace Fits

variable {registry : Registry} {calleeIds : List NodeId} {nodes others : List Expr}
  {e : Expr}

theorem tail (h : Fits registry calleeIds (e :: nodes)) :
  Fits registry calleeIds nodes
  where
  replayable other hother := h.replayable other (List.mem_cons_of_mem e hother)
  callees id hid := by
    apply h.callees id
    rw [Expr.calleeIds, List.filterMap_cons]
    split
    · exact hid
    · exact List.mem_cons_of_mem _ hid
  distinct := by
    have hdistinct := h.distinct
    rw [Expr.callIds, List.filterMap_cons] at hdistinct
    split at hdistinct
    · exact hdistinct
    · exact (List.nodup_cons.mp hdistinct).2

theorem left (h : Fits registry calleeIds (nodes ++ others)) :
  Fits registry calleeIds nodes
  where
  replayable other hother := h.replayable other (List.mem_append_left others hother)
  callees id hid := by
    apply h.callees id
    rw [Expr.calleeIds, List.filterMap_append]
    exact List.mem_append_left _ hid
  distinct := by
    have hdistinct := h.distinct
    rw [Expr.callIds, List.filterMap_append] at hdistinct
    exact (List.nodup_append.mp hdistinct).1

theorem right (h : Fits registry calleeIds (nodes ++ others)) :
  Fits registry calleeIds others
  where
  replayable other hother := h.replayable other (List.mem_append_right nodes hother)
  callees id hid := by
    apply h.callees id
    rw [Expr.calleeIds, List.filterMap_append]
    exact List.mem_append_right _ hid
  distinct := by
    have hdistinct := h.distinct
    rw [Expr.callIds, List.filterMap_append] at hdistinct
    exact (List.nodup_append.mp hdistinct).2.1

/-- The calls of disjoint parts of an expression are disjoint. -/
theorem disjoint (h : Fits registry calleeIds (nodes ++ others)) :
  ∀ id ∈ Expr.callIds nodes, id ∉ Expr.callIds others
  := by
  intro id hid hid'
  have hdistinct := h.distinct
  rw [Expr.callIds, List.filterMap_append] at hdistinct
  exact (List.nodup_append.mp hdistinct).2.2 id hid id hid' rfl

end Fits

/-- The calls of nodes are listed in the order of the nodes. -/
theorem Expr.callIds_append (nodes others : List Expr) :
  callIds (nodes ++ others) = callIds nodes ++ callIds others
  := List.filterMap_append

/-- A node that is no call adds none. -/
theorem Expr.callIds_cons {e : Expr} {nodes : List Expr} (h : e.callId? = none) :
  callIds (e :: nodes) = callIds nodes
  := List.filterMap_cons_none h

/-- A scope that serves some code serves code that asks for less of it. -/
theorem Sees.imp {c : Context} {scope : Scope} {closed weaker : List String → Bool}
    (h : Sees c scope closed)
    (himp : ∀ names, closed names = true → weaker names = true) :
  Sees c scope weaker
  := by
  rcases h with hmode | ⟨names, hbinds, hclosed⟩
  · exact .inl hmode
  · exact .inr ⟨names, hbinds, himp names hclosed⟩

/-- Code of two parts is seen if both of them are. -/
theorem Sees.parts {c : Context} {scope : Scope} {closed first second : List String → Bool}
    (h : Sees c scope closed)
    (hparts : ∀ names, closed names = (first names && second names)) :
  Sees c scope first ∧ Sees c scope second
  := by
  have hboth {names : List String} (hclosed : closed names = true) :
      first names = true ∧ second names = true := by
    rwa [hparts, Bool.and_eq_true] at hclosed
  constructor
  · exact h.imp fun _ hclosed => (hboth hclosed).1
  · exact h.imp fun _ hclosed => (hboth hclosed).2

/-- A scope that serves a list of expressions serves the first and the others. -/
theorem Sees.cons {c : Context} {scope : Scope} {e : Expr} {rest : List Expr}
    (h : Sees c scope (Expr.areClosedUnder · (e :: rest))) :
  Sees c scope e.isClosedUnder ∧ Sees c scope (Expr.areClosedUnder · rest)
  := by
  apply h.parts
  intro names
  rw [Expr.areClosedUnder]

/-- The main code stays the main code when it is only looked at. -/
theorem Context.IsMain.lookAside {m : ToplevelId} {registry : Registry} {c : Context}
    (hc : c.IsMain m registry) :
  c.lookAside.IsMain m registry
  := ⟨hc.toplevel, hc.registry, hc.stack, hc.version⟩

/-- The main code stays the main code in a preview. -/
theorem Context.IsMain.inPreview {m : ToplevelId} {registry : Registry} {c : Context}
    (hc : c.IsMain m registry) (sharing : Mode → Nat → Sharing) :
  (c.inPreview sharing).IsMain m registry
  := ⟨hc.toplevel, hc.registry, hc.stack, hc.version⟩

/-! ### Code of functions -/

/-- A plain built-in ends at once. -/
theorem Function.IsPlain.run {f : Function} (hf : f.IsPlain) {b : Builtin}
    (hb : f.implementation = .builtin b) (known : BuiltinContext) (args : List Value) :
  ∃ result, b.run known args = .finish result
  := by
  obtain ⟨hmem, hpure, hname⟩ := hf
  rcases Stdlib.cases_of_mem hmem with
    ⟨run, -, -, hrun⟩ | ⟨-, hrun⟩ | ⟨hmap, -⟩ | ⟨hnow, -⟩
  · rw [hrun] at hb
    cases hb
    exact ⟨_, rfl⟩
  · rw [hrun] at hb
    cases hb
    exact ⟨_, rfl⟩
  · exact absurd hmap hname
  · rw [hpure] at hnow
    cases hnow

/-- The standard library has no code of a toplevel. -/
theorem Registry.avoids_addAll {m : ToplevelId} {fs : List Function}
    (hfs : ∀ f ∈ fs, ∀ origin toplevel body,
      f.implementation = .written origin toplevel body → toplevel ≠ m) :
  (Stdlib.registry.addAll fs).Avoids m
  := by
  intro name f origin toplevel body hf hbody
  rcases Stdlib.mem_of_get?_addAll hf with hmem | hmem
  · exact hfs f hmem origin toplevel body hbody
  · obtain ⟨b, hb⟩ := Stdlib.exists_builtin_of_mem hmem
    rw [hb] at hbody
    cases hbody

namespace Interpreter

variable {m : ToplevelId} {registry : Registry} {calleeIds : List NodeId}
  {sharing : Mode → Nat → Sharing} {fuel : Nat} {c : Context} {scope : Scope}

/-- Whatever is evaluated only adds to the log, keeps a store in memory, and does not
fault. -/
theorem stable_grows (log : List (Context × Event)) :
  Stable (fun _ => True) (fun _ => True) (fun _ => True)
    (fun w => w.store.IsMemory ∧ log <:+ w.log) False
  where
  toClosedKind := ClosedKind.trivial
  lookAside _ := trivial
  inCall _ := trivial
  inToplevel _ _ _ := trivial
  builtin _ _ _ _ _ := BuiltinStep.within_trivial _
  report _ _ := Run.Grows.report log
  enter _ _ hw := by
    obtain ⟨hmemory, hlog⟩ := hw
    exact ⟨⟨hmemory.enter, hlog.trans (List.suffix_cons _ _)⟩, trivial⟩
  load _ := by
    apply Run.Keeps.load (fun _ _ => trivial)
    rintro w hash ⟨hmemory, hlog⟩
    exact ⟨⟨hmemory, hlog.trans (List.suffix_cons _ _)⟩, fun _ _ => trivial⟩
  record _ _ _ := by
    apply Run.Keeps.record
    rintro w hash ⟨hmemory, hlog⟩
    exact ⟨hmemory.record, hlog.trans (List.suffix_cons _ _)⟩
  invoke _ _ _ hw := by
    obtain ⟨hmemory, hlog⟩ := hw
    exact ⟨⟨hmemory, hlog.trans (List.suffix_cons _ _)⟩, trivial⟩

/-- Code of other toplevels leaves the results of a toplevel alone. -/
theorem stable_elsewhere (havoids : registry.Avoids m) (store : TraceStore) :
  Stable (fun c => c.toplevel ≠ m ∧ c.registry = registry) (fun _ => True) (fun _ => True)
    (fun w => store.AgreeAt m (fun _ => True) w.store) True
  where
  toClosedKind := ClosedKind.trivial
  lookAside hc := hc
  inCall hc := hc
  inToplevel {c name f origin toplevel body} hc hf hbody := by
    rw [hc.2] at hf
    exact ⟨havoids name f origin toplevel body hf hbody, hc.2⟩
  builtin _ _ _ _ _ := BuiltinStep.within_trivial _
  report _ _ := by
    apply Run.Keeps.report
    · intro w hw site hash hm hid
      rw [TraceStore.load?_report]
      exact hw site hash hm hid
    · exact fun _ _ _ => trivial
  enter _ w hw := by
    constructor
    · intro site hash hm hid
      rw [Run.enter, TraceStore.load?_enter]
      exact hw site hash hm hid
    · trivial
  load _ := by
    apply Run.Keeps.load (fun _ _ => trivial)
    exact fun w hash hw => ⟨hw, fun _ _ => trivial⟩
  record {c site args value} hc hsite _ := by
    apply Run.Keeps.record
    intro w hash hw site' hash' hm hid
    rw [TraceStore.load?_record, if_neg]
    · exact hw site' hash' hm hid
    · rintro ⟨-, rfl, -⟩
      exact hc.1 (hsite.symm.trans hm)
  invoke _ _ _ hw := ⟨hw, trivial⟩

open Run (Replays Repeats Grows bind_eq_done)

/-- Evaluation adds results to a store and takes none away. -/
theorem eval_grows {e : Expr} :
  (eval fuel c scope e).Grows
  := fun log => ((stable_grows log).kept fuel).eval e trivial fun _ _ => trivial

/-- An application adds results to a store and takes none away. -/
theorem applyValue_grows {id : NodeId} {callee : Value} {args : List Value}
    {position : PipePosition} {railUse : RailUse} :
  (applyValue fuel c id callee args position railUse).Grows
  := fun log => ((stable_grows log).kept fuel).applyValue trivial trivial fun _ _ => trivial

/-- Evaluation in another toplevel leaves the results of the main code alone. -/
theorem eval_elsewhere (havoids : registry.Avoids m) (hm : c.toplevel ≠ m)
    (hregistry : c.registry = registry) {e : Expr} {w w' : World} {value : Value}
    (hrun : eval fuel c scope e w = (.done value, w')) :
  w.store.AgreeAt m (fun _ => True) w'.store
  := by
  have hscope : scope.All fun _ => True := fun _ _ => trivial
  have h := ((stable_elsewhere havoids w.store).kept fuel).eval e ⟨hm, hregistry⟩ hscope w
    fun _ _ _ _ => rfl
  rw [hrun] at h
  exact h.1

/-! ### Functions -/

/-- The arguments of calls in the main code have a hash. -/
theorem argumentHash?_eq_some (hc : c.IsMain m registry) (args : List Value) :
  ∃ hash, c.argumentHash? args = some hash
  := by
  have hversion := hc.version
  rw [Hashable.supportedVersions] at hversion
  rw [Context.argumentHash?, Hashable.hash, Hashable.argumentBytes]
  rcases List.mem_cons.mp hversion with h | h
  · rw [h]
    exact ⟨_, rfl⟩
  · rw [List.mem_singleton.mp h]
    exact ⟨_, rfl⟩

/-- The first run of a function leaves its result and nothing else at the toplevel. -/
theorem carryOutBody_recorded (hc : c.IsMain m registry) (havoids : registry.Avoids m)
    {name : FunctionName} {f : Function} {origin : Origin} {toplevel : ToplevelId}
    {body : Expr} {id : NodeId} {args : List Value} {value : Value} {w w' : World}
    (hf : Assoc.get? name registry = some f)
    (hbody : f.implementation = .written origin toplevel body)
    (hmemory : w.store.IsMemory) (hfree : w.store.IsFreeAt m [id])
    (hrun : carryOutBody fuel (c.inCall f.name id) f toplevel body (c.site f.name id) args w
      = (.done value, w')) :
  ∃ hash, c.argumentHash? args = some hash
    ∧ w'.store.load? (c.site f.name id) hash = some value
    ∧ w.store.AgreeAt m (· ∉ [id]) w'.store
  := by
  cases fuel with
  | zero => cases hrun
  | succ fuel =>
    obtain ⟨hash, hhash⟩ := argumentHash?_eq_some hc args
    rw [carryOutBody] at hrun
    obtain ⟨_, wa, henter, hrun⟩ := bind_eq_done hrun
    have hwa : wa.store = w.store.enter toplevel := by
      cases henter
      rfl
    have hmemory' : wa.store.IsMemory := hwa ▸ hmemory.enter
    have hnone : ∀ hash, wa.store.load? (c.site f.name id) hash = none := by
      intro hash
      rw [hwa, TraceStore.load?_enter]
      exact hfree _ hash hc.toplevel (List.mem_singleton_self id)
    obtain ⟨recorded, wb, hload, hrun⟩ := bind_eq_done hrun
    obtain ⟨wb', hload', hwb, -⟩ := Run.loadIf_eq_none hnone
    rw [hload'] at hload
    cases hload
    rw [← hwb] at hmemory'
    obtain ⟨result, wc, heval, hrun⟩ := bind_eq_done hrun
    obtain ⟨_, wd, hrecord, hrun⟩ := bind_eq_done hrun
    cases hrun
    have hwd : w'.store = wc.store.record (c.site f.name id) hash result.offRail := by
      rw [Run.record, show (c.inCall f.name id).argumentHash? args = some hash from hhash]
        at hrecord
      cases hrecord
      rfl
    obtain ⟨hmemory'', -⟩ := eval_grows.of_done hmemory' heval
    have hregistry : ((c.inCall f.name id).inToplevel toplevel).registry = registry :=
      hc.registry
    have hsame := eval_elsewhere havoids
      (havoids name f origin toplevel body hf hbody) hregistry heval
    refine ⟨hash, hhash, ?_, ?_⟩
    · rw [hwd, hmemory''.load?_record, if_pos ⟨rfl, rfl⟩]
    · intro site hash' hm hid
      rw [hwd, hmemory''.load?_record, if_neg, ← hsame site hash' hm trivial, hwb, hwa,
        TraceStore.load?_enter]
      rintro ⟨rfl, -⟩
      exact hid (List.mem_singleton_self id)

/-- A function whose result is recorded is not evaluated again. -/
theorem carryOutBody_repeats {f : Function} {toplevel : ToplevelId} {body : Expr}
    {id : NodeId} {args : List Value} {hash : String} {value : Value} {w : World}
    (hhash : c.argumentHash? args = some hash) (hmemory : w.store.IsMemory)
    (hvalue : w.store.load? (c.site f.name id) hash = some value) :
  Repeats m [id]
    (carryOutBody (fuel + 1) ((c.inPreview sharing).inCall f.name id) f toplevel body
      ((c.inPreview sharing).site f.name id) args) value w
  := by
  have hhash' : ((c.inPreview sharing).inCall f.name id).argumentHash? args = some hash := hhash
  rw [carryOutBody]
  apply Repeats.bind (Repeats.enter hmemory)
  intro w₁ hmemory₁ hsame₁
  apply Repeats.bind (Repeats.loadIf hmemory₁ hhash' (by rw [hsame₁]; exact hvalue))
  intro w₂ hmemory₂ hsame₂
  apply Repeats.bind (Repeats.record hmemory₂ hhash' (by rw [hsame₂, hsame₁]; exact hvalue))
  intro w₃ hmemory₃ _
  exact Repeats.done hmemory₃

/-- The first run of a function leaves its result, which the second run takes up. -/
theorem carryOutBody_replays {safe : Context × Event → Prop} (hc : c.IsMain m registry)
    (havoids : registry.Avoids m) {name : FunctionName} {f : Function} {origin : Origin}
    {toplevel : ToplevelId} {body : Expr} {id : NodeId} {args : List Value}
    (hf : Assoc.get? name registry = some f)
    (hbody : f.implementation = .written origin toplevel body)
    (hreal : ∀ arg ∈ args, arg.isFake = false) :
  Replays m safe [id]
    (carryOutBody fuel (c.inCall f.name id) f toplevel body (c.site f.name id) args)
    (carryOutBody fuel ((c.inPreview sharing).inCall f.name id) f toplevel body
      ((c.inPreview sharing).site f.name id) args)
  := by
  cases fuel with
  | zero => exact Replays.outOfFuel
  | succ fuel =>
    constructor
    · intro log
      have hf' : Assoc.get? name c.registry = some f := by rw [hc.registry, hf]
      exact ((stable_grows log).kept _).carryOutBody trivial hf' hbody rfl
        (fun _ _ => trivial) hreal
    · intro w w' value hmemory hfree hrun _
      obtain ⟨hash, hhash, hvalue, helsewhere⟩ :=
        carryOutBody_recorded hc havoids hf hbody hmemory hfree hrun
      use helsewhere
      intro w₂ hmemory₂ hagree
      apply carryOutBody_repeats hhash hmemory₂
      rw [← hagree _ hash hc.toplevel (List.mem_singleton_self id), hvalue]

/-- A plain built-in leaves no result, so that the second run carries it out again, with
the same result, since it does not compare what hides NaN. -/
theorem carryOutBuiltin_replays (hc : c.IsMain m registry) {name : FunctionName}
    {f : Function} {b : Builtin} {id : NodeId} {args : List Value}
    (hf : Assoc.get? name registry = some f) (hb : f.implementation = .builtin b)
    (hplain : f.IsPlain) (hreal : ∀ arg ∈ args, arg.isFake = false) :
  Replays m (Event.IsSafe m registry calleeIds) [id]
    (carryOutBuiltin fuel (c.inCall f.name id) f b (c.site f.name id) args)
    (carryOutBuiltin fuel ((c.inPreview sharing).inCall f.name id) f b
      ((c.inPreview sharing).site f.name id) args)
  := by
  cases fuel with
  | zero => exact Replays.outOfFuel
  | succ fuel =>
    have hpure : f.previewability = .pure := hplain.2.1
    constructor
    · intro log
      have hf' : Assoc.get? name c.registry = some f := by rw [hc.registry, hf]
      exact ((stable_grows log).kept _).carryOutBuiltin trivial hf' hb rfl
        (fun _ _ => trivial) hreal
    · intro w w' value hmemory hfree hrun hsafe
      have hnone : ∀ hash, w.store.load? (c.site f.name id) hash = none := by
        intro hash
        exact hfree _ hash hc.toplevel (List.mem_singleton_self id)
      rw [carryOutBuiltin] at hrun
      obtain ⟨recorded, wa, hload, hrun⟩ := bind_eq_done hrun
      obtain ⟨wa', hload', hwa, -⟩ := Run.loadIf_eq_none hnone
      rw [hload'] at hload
      cases hload
      simp only [hpure, reduceCtorEq, false_and, if_false] at hrun
      obtain ⟨known, wb, hinvoke, hrun⟩ := bind_eq_done hrun
      obtain ⟨result, hresult⟩ := hplain.run hb known args
      rw [hresult] at hrun
      cases fuel with
      | zero =>
        obtain ⟨outcome, wc, hsteps, -⟩ := bind_eq_done hrun
        cases hsteps
      | succ fuel =>
        obtain ⟨outcome, wc, hsteps, hrun⟩ := bind_eq_done hrun
        cases hsteps
        cases hrun
        obtain ⟨hwb, hinvoked⟩ : w'.store = w.store
            ∧ (c.inCall f.name id, Event.invoke f args) ∈ w'.log := by
          cases hinvoke
          exact ⟨hwa, List.mem_cons_self⟩
        have hargs : Stdlib.comparesHiddenNaN f args = false := hsafe _ hinvoked hc.toplevel
        constructor
        · intro site hash _ _
          rw [hwb]
        · intro w₂ hmemory₂ hagree
          have hnone₂ : ∀ hash, w₂.store.load? (c.site f.name id) hash = none := by
            intro hash
            rw [← hagree _ hash hc.toplevel (List.mem_singleton_self id), hwb, hnone]
          rw [carryOutBuiltin]
          apply Repeats.bind (Repeats.loadIfNone hmemory₂ hnone₂)
          intro w₃ hmemory₃ hsame₃
          simp only [hpure, reduceCtorEq, false_and, if_false]
          obtain ⟨known₃, hinvoke₃⟩ := Repeats.invoke hmemory₃ hplain
            (List.mem_singleton_self id)
            (show ((c.inPreview sharing).inCall f.name id).stack = [⟨f.name, id⟩] by
              rw [Context.inCall, Context.inPreview, hc.stack])
          apply Repeats.bind hinvoke₃
          intro w₄ hmemory₄ _
          rw [Stdlib.run_eq_of_pure hplain.1 hpure hb hargs known₃ known, hresult]
          exact Repeats.done hmemory₄

/-- A function that is carried out in the main code is replayed: by its recorded result if
it has one, and else by its body or its built-in. -/
theorem carryOut_replays (hc : c.IsMain m registry)
    (havoids : registry.Avoids m) {name : FunctionName} {f : Function} {id : NodeId}
    {args : List Value} (hf : Assoc.get? name registry = some f)
    (hknown : f.isBuiltin = false ∨ f.IsPlain) (hreal : ∀ arg ∈ args, arg.isFake = false) :
  Replays m (Event.IsSafe m registry calleeIds) [id] (carryOut fuel c f id args)
    (carryOut fuel (c.inPreview sharing) f id args)
  := by
  cases fuel with
  | zero => exact Replays.outOfFuel
  | succ fuel =>
    rw [carryOut, carryOut]
    cases himplementation : f.implementation with
    | builtin b =>
      have hplain : f.IsPlain := by
        rcases hknown with hwritten | hplain
        · rw [Function.isBuiltin, himplementation] at hwritten
          cases hwritten
        · exact hplain
      apply Replays.andThen (carryOutBuiltin_replays hc hf himplementation hplain hreal)
      intro _
      exact Replays.done
    | written origin toplevel body =>
      have houter {mode : Mode} :
          ¬ (mode = .preview ∧ (c.stack.outerCall? f.name).isSome = true) := by
        rintro ⟨-, hstack⟩
        rw [hc.stack] at hstack
        cases hstack
      have hstack : (c.inPreview sharing).stack = c.stack := rfl
      have htypes : (c.inPreview sharing).types = c.types := rfl
      dsimp only
      rw [if_neg houter, hstack, if_neg houter, htypes]
      cases Typing.checkCall c.types f.parameterTypes args with
      | cons error errors => exact Replays.done
      | nil =>
        apply Replays.andThen (carryOutBody_replays hc havoids hf himplementation hreal)
        intro _
        exact Replays.done

/-- A call in the main code is replayed. -/
theorem call_replays (hc : c.IsMain m registry)
    (havoids : registry.Avoids m) {name : FunctionName} (hname : registry.Replays name)
    {id : NodeId} {args : List Value} {position : PipePosition} {railUse : RailUse} :
  Replays m (Event.IsSafe m registry calleeIds) [id] (call fuel c name id args position railUse)
    (call fuel (c.inPreview sharing) name id args position railUse)
  := by
  cases fuel with
  | zero => exact Replays.outOfFuel
  | succ fuel =>
    obtain ⟨f, hf, hknown⟩ := hname
    have hregistry : (c.inPreview sharing).registry = c.registry := rfl
    rw [call, call, hregistry, hc.registry, hf]
    cases hrails : args.find? Value.isErrorRail with
    | some value => exact Replays.done
    | none =>
      dsimp only
      split
      · exact Replays.done
      · cases hbad : args.find? fun value => value.isIncomplete || value.isFailure with
        | some value =>
          cases position with
          | inPipe pipe => cases value <;> exact Replays.done
          | notInPipe => exact Replays.done
        | none =>
          apply Replays.andThen
            (carryOut_replays hc havoids hf hknown (Value.isFake_of_find? hrails hbad))
          intro _
          cases railUse with
          | rail => exact Replays.done
          | noRail => exact Replays.done

/-- The application of a function value whose calls are replayed is replayed. -/
theorem applyValue_replays (hc : c.IsMain m registry)
    (havoids : registry.Avoids m) {callee : Value} (hcallee : registry.ReplaysValue callee)
    {id : NodeId} {args : List Value} {position : PipePosition} {railUse : RailUse} :
  Replays m (Event.IsSafe m registry calleeIds) [id]
    (applyValue fuel c id callee args position railUse)
    (applyValue fuel (c.inPreview sharing) id callee args position railUse)
  := by
  cases fuel with
  | zero => exact Replays.outOfFuel
  | succ fuel =>
    cases callee with
    | named name =>
      obtain ⟨_, heq, hname⟩ := hcallee _ rfl
      cases heq
      cases fuel with
      | zero => exact Replays.outOfFuel
      | succ fuel => exact call_replays hc havoids hname
    | lambda parameters captured body =>
      obtain ⟨_, heq, -⟩ := hcallee _ rfl
      cases heq
    | incomplete =>
      cases position with
      | inPipe pipe => exact Replays.done
      | notInPipe => exact Replays.done
    | _ => exact Replays.done

/-! ### Expressions -/

/-- What a preview replays of evaluation with some fuel. -/
structure Replayed (m : ToplevelId) (registry : Registry) (calleeIds : List NodeId)
    (sharing : Mode → Nat → Sharing) (fuel : Nat) : Prop where
  eval : ∀ {c scope} e, c.IsMain m registry → Fits registry calleeIds e.nodes →
    Sees c scope e.isClosedUnder →
    Replays m (Event.IsSafe m registry calleeIds) (Expr.callIds e.nodes)
      (eval fuel c scope e) (eval fuel (c.inPreview sharing) scope e)
  lookAt : ∀ {c scope} e, c.IsMain m registry → Fits registry calleeIds e.nodes →
    Replays m (Event.IsSafe m registry calleeIds) (Expr.callIds e.nodes)
      (lookAt fuel c scope e) (lookAt fuel (c.inPreview sharing) scope e)
  evalNode : ∀ {c scope} e, c.IsMain m registry → Fits registry calleeIds e.nodes →
    Sees c scope e.isClosedUnder →
    Replays m (Event.IsSafe m registry calleeIds) (Expr.callIds e.nodes)
      (evalNode fuel c scope e) (evalNode fuel (c.inPreview sharing) scope e)
  evalArgs : ∀ {c scope} es, c.IsMain m registry →
    Fits registry calleeIds (Expr.nodesOfList es) →
    Sees c scope (Expr.areClosedUnder · es) →
    Replays m (Event.IsSafe m registry calleeIds) (Expr.callIds (Expr.nodesOfList es))
      (evalArgs fuel c scope es) (evalArgs fuel (c.inPreview sharing) scope es)
  evalItems : ∀ {c scope} es, c.IsMain m registry →
    Fits registry calleeIds (Expr.nodesOfList es) →
    Sees c scope (Expr.areClosedUnder · es) →
    Replays m (Event.IsSafe m registry calleeIds) (Expr.callIds (Expr.nodesOfList es))
      (evalItems fuel c scope es) (evalItems fuel (c.inPreview sharing) scope es)
  evalFields : ∀ {c scope} es, c.IsMain m registry →
    Fits registry calleeIds (Expr.nodesOfFields es) →
    Sees c scope (Expr.fieldsAreClosedUnder · es) →
    Replays m (Event.IsSafe m registry calleeIds) (Expr.callIds (Expr.nodesOfFields es))
      (evalFields fuel c scope es) (evalFields fuel (c.inPreview sharing) scope es)
  evalCases : ∀ {c scope value chosen} cases, c.IsMain m registry →
    Fits registry calleeIds (Expr.nodesOfCases cases) →
    Sees c scope (Expr.casesAreClosedUnder · cases) →
    Replays m (Event.IsSafe m registry calleeIds) (Expr.callIds (Expr.nodesOfCases cases))
      (evalCases fuel c scope value cases chosen)
      (evalCases fuel (c.inPreview sharing) scope value cases chosen)

/-- The reports of a pattern are the same in the preview. -/
theorem reportPattern_replays {safe : Context × Event → Prop} (hc : c.IsMain m registry)
    {executed : Bool} {reports : List (NodeId × Value)} :
  Replays m safe [] (reportPattern c executed reports)
    (reportPattern (c.inPreview sharing) executed reports)
  := by
  induction reports with
  | nil => exact Replays.done
  | cons report rest ih =>
    apply Replays.andThen
      (Replays.report (hc.inPreview sharing).toplevel (hc.inPreview sharing).stack)
    intro _
    exact ih

/-- The evaluation of an expression is replayed if that of the node is. -/
theorem eval_replays (ih : Replayed m registry calleeIds sharing fuel) (e : Expr)
    (hc : c.IsMain m registry) (hfits : Fits registry calleeIds e.nodes)
    (hsees : Sees c scope e.isClosedUnder) :
  Replays m (Event.IsSafe m registry calleeIds) (Expr.callIds e.nodes)
    (eval (fuel + 1) c scope e) (eval (fuel + 1) (c.inPreview sharing) scope e)
  := by
  rw [eval, eval]
  apply Replays.andThen (ih.evalNode e hc hfits hsees)
  intro value
  apply Replays.andThen
    (Replays.report (hc.inPreview sharing).toplevel (hc.inPreview sharing).stack)
  intro _
  exact Replays.done

/-- A look at code in the main code is the same look in the preview. -/
theorem lookAt_replays (ih : Replayed m registry calleeIds sharing fuel) (e : Expr)
    (hc : c.IsMain m registry) (hfits : Fits registry calleeIds e.nodes) :
  Replays m (Event.IsSafe m registry calleeIds) (Expr.callIds e.nodes)
    (lookAt (fuel + 1) c scope e) (lookAt (fuel + 1) (c.inPreview sharing) scope e)
  := by
  rw [lookAt, lookAt]
  apply Replays.andThen (ih.eval e hc.lookAside hfits (.inl rfl))
  intro _
  exact Replays.done

/-- Arguments are replayed one after another. -/
theorem evalArgs_replays (ih : Replayed m registry calleeIds sharing fuel) (es : List Expr)
    (hc : c.IsMain m registry) (hfits : Fits registry calleeIds (Expr.nodesOfList es))
    (hsees : Sees c scope (Expr.areClosedUnder · es)) :
  Replays m (Event.IsSafe m registry calleeIds) (Expr.callIds (Expr.nodesOfList es))
    (evalArgs (fuel + 1) c scope es) (evalArgs (fuel + 1) (c.inPreview sharing) scope es)
  := by
  cases es with
  | nil => exact Replays.done
  | cons e rest =>
    rw [Expr.nodesOfList] at hfits ⊢
    rw [evalArgs, evalArgs, Expr.callIds_append]
    obtain ⟨hhead, htail⟩ := hsees.cons
    apply Replays.bind (ih.eval e hc hfits.left hhead) _ hfits.disjoint
    intro value
    apply Replays.andThen (ih.evalArgs rest hc hfits.right htail)
    intro values
    exact Replays.done

/-- Items are replayed one after another. -/
theorem evalItems_replays (ih : Replayed m registry calleeIds sharing fuel) (es : List Expr)
    (hc : c.IsMain m registry) (hfits : Fits registry calleeIds (Expr.nodesOfList es))
    (hsees : Sees c scope (Expr.areClosedUnder · es)) :
  Replays m (Event.IsSafe m registry calleeIds) (Expr.callIds (Expr.nodesOfList es))
    (evalItems (fuel + 1) c scope es) (evalItems (fuel + 1) (c.inPreview sharing) scope es)
  := by
  cases es with
  | nil => exact Replays.done
  | cons e rest =>
    rw [Expr.nodesOfList] at hfits ⊢
    rw [evalItems, evalItems, Expr.callIds_append]
    obtain ⟨hhead, htail⟩ := hsees.cons
    apply Replays.bind (ih.eval e hc hfits.left hhead) _ hfits.disjoint
    intro value
    split
    · exact Replays.done
    · apply Replays.andThen (ih.evalItems rest hc hfits.right htail)
      rintro (rail | values)
      · exact Replays.done
      · exact Replays.done

/-- Fields are replayed one after another. -/
theorem evalFields_replays (ih : Replayed m registry calleeIds sharing fuel)
    (es : List (String × Expr)) (hc : c.IsMain m registry)
    (hfits : Fits registry calleeIds (Expr.nodesOfFields es))
    (hsees : Sees c scope (Expr.fieldsAreClosedUnder · es)) :
  Replays m (Event.IsSafe m registry calleeIds) (Expr.callIds (Expr.nodesOfFields es))
    (evalFields (fuel + 1) c scope es) (evalFields (fuel + 1) (c.inPreview sharing) scope es)
  := by
  cases es with
  | nil => exact Replays.done
  | cons field rest =>
    obtain ⟨name, e⟩ := field
    rw [Expr.nodesOfFields] at hfits ⊢
    rw [evalFields, evalFields, Expr.callIds_append]
    obtain ⟨hhead, htail⟩ : Sees c scope e.isClosedUnder
        ∧ Sees c scope (Expr.fieldsAreClosedUnder · rest) := by
      apply hsees.parts
      intro names
      rw [Expr.fieldsAreClosedUnder]
    split
    · apply (ih.evalFields rest hc hfits.right htail).mono
      exact fun id => List.mem_append_right _
    · apply Replays.bind (ih.eval e hc hfits.left hhead) _ hfits.disjoint
      intro value
      apply Replays.andThen (ih.evalFields rest hc hfits.right htail)
      intro pairs
      exact Replays.done

/-- A case that is taken sees its variables, since its pattern matched. -/
theorem evalCases_replays (ih : Replayed m registry calleeIds sharing fuel) {value : Value}
    {chosen : Option Value} (cases : List (Pattern × Expr)) (hc : c.IsMain m registry)
    (hfits : Fits registry calleeIds (Expr.nodesOfCases cases))
    (hsees : Sees c scope (Expr.casesAreClosedUnder · cases)) :
  Replays m (Event.IsSafe m registry calleeIds) (Expr.callIds (Expr.nodesOfCases cases))
    (evalCases (fuel + 1) c scope value cases chosen)
    (evalCases (fuel + 1) (c.inPreview sharing) scope value cases chosen)
  := by
  cases cases with
  | nil => exact Replays.done
  | cons case rest =>
    obtain ⟨pattern, body⟩ := case
    rw [Expr.nodesOfCases] at hfits ⊢
    rw [evalCases, evalCases, Expr.callIds_append]
    have htail : Sees c scope (Expr.casesAreClosedUnder · rest) :=
      hsees.imp fun names h => by
        rw [Expr.casesAreClosedUnder, Bool.and_eq_true] at h
        exact h.2
    have hrest (chosen : Option Value) {reports : List (NodeId × Value)} (executed : Bool) :
        Replays m (Event.IsSafe m registry calleeIds)
          (Expr.callIds (Expr.nodesOfCases rest))
          (do reportPattern c executed reports; evalCases fuel c scope value rest chosen)
          (do
            reportPattern (c.inPreview sharing) executed reports
            evalCases fuel (c.inPreview sharing) scope value rest chosen) := by
      apply Replays.skip (reportPattern_replays hc)
      intro _
      exact ih.evalCases rest hc hfits.right htail
    change Replays m _ _
      (if (chosen.isNone && (Matching.check c.toplevel value pattern).matched) = true
        then _ else _)
      (if (chosen.isNone && (Matching.check c.toplevel value pattern).matched) = true
        then _ else _)
    split
    · next hmatched =>
      rw [Bool.and_eq_true] at hmatched
      have hbody : Sees c ((Matching.check c.toplevel value pattern).extend scope)
          body.isClosedUnder := by
        rcases hsees with hmode | ⟨names, hbinds, hclosed⟩
        · exact .inl hmode
        · dsimp only at hclosed
          rw [Expr.casesAreClosedUnder, Bool.and_eq_true] at hclosed
          refine .inr ⟨pattern.boundNames ++ names, ?_, hclosed.1⟩
          apply (hbinds.extend _).mono
          intro name hname
          rcases List.mem_append.mp hname with hname | hname
          · exact List.mem_append_left _
              (Matching.boundNames_of_matched hmatched.2 name hname)
          · exact List.mem_append_right _ hname
      apply Replays.bind (ih.eval body hc hfits.left hbody) _ hfits.disjoint
      intro result
      exact hrest (some result) c.onPath
    · apply Replays.bind (ih.lookAt body hc hfits.left) _ hfits.disjoint
      intro _
      exact hrest chosen false

/-- A constructor is replayed with its payload. -/
theorem constructor_replays (ih : Replayed m registry calleeIds sharing fuel) (id : NodeId)
    (name : String) (args : List Expr) (hc : c.IsMain m registry)
    (hfits : Fits registry calleeIds (Expr.nodesOfList args))
    (hsees : Sees c scope (Expr.areClosedUnder · args)) :
  Replays m (Event.IsSafe m registry calleeIds) (Expr.callIds (Expr.nodesOfList args))
    (evalNode (fuel + 1) c scope (.constructor id name args))
    (evalNode (fuel + 1) (c.inPreview sharing) scope (.constructor id name args))
  := by
  have hunary (arg : Expr) (hargs : args = [arg]) (wrapped : Value → Value) :
      Replays m (Event.IsSafe m registry calleeIds) (Expr.callIds (Expr.nodesOfList args))
        (do let value ← eval fuel c scope arg; pure (wrapped value))
        (do let value ← eval fuel (c.inPreview sharing) scope arg; pure (wrapped value)) := by
    subst hargs
    rw [Expr.nodesOfList, Expr.nodesOfList, List.append_nil] at hfits ⊢
    apply Replays.andThen (ih.eval arg hc hfits hsees.cons.1)
    intro _
    exact Replays.done
  unfold evalNode
  dsimp only
  split
  · exact Replays.done
  · exact hunary _ rfl _
  · exact hunary _ rfl _
  · exact hunary _ rfl _
  · split
    · exact Replays.done
    · exact Replays.done

/-- Code that is not taken is looked at before the other is evaluated. -/
theorem taken_replays (ih : Replayed m registry calleeIds sharing fuel) {other taken : Expr}
    (hc : c.IsMain m registry) (hother : Fits registry calleeIds other.nodes)
    (htaken : Fits registry calleeIds taken.nodes)
    (hdisjoint : ∀ id ∈ Expr.callIds other.nodes, id ∉ Expr.callIds taken.nodes)
    (hsees : Sees c scope taken.isClosedUnder) :
  Replays m (Event.IsSafe m registry calleeIds)
    (Expr.callIds other.nodes ++ Expr.callIds taken.nodes)
    (do lookAt fuel c scope other; eval fuel c scope taken)
    (do lookAt fuel (c.inPreview sharing) scope other; eval fuel (c.inPreview sharing) scope taken)
  := by
  apply Replays.bind (ih.lookAt other hc hother) _ hdisjoint
  intro _
  exact ih.eval taken hc htaken hsees

/-- Both runs take the same branch of a conditional and look at the other. -/
theorem conditional_replays (ih : Replayed m registry calleeIds sharing fuel) (id : NodeId)
    (condition thenCase elseCase : Expr) (hc : c.IsMain m registry)
    (hfits : Fits registry calleeIds
      (condition.nodes ++ (thenCase.nodes ++ elseCase.nodes)))
    (hsees : Sees c scope (Expr.isClosedUnder · (.conditional id condition thenCase elseCase))) :
  Replays m (Event.IsSafe m registry calleeIds)
    (Expr.callIds (condition.nodes ++ (thenCase.nodes ++ elseCase.nodes)))
    (evalNode (fuel + 1) c scope (.conditional id condition thenCase elseCase))
    (evalNode (fuel + 1) (c.inPreview sharing) scope (.conditional id condition thenCase elseCase))
  := by
  obtain ⟨hboth, helseSees⟩ : Sees c scope (fun names =>
      condition.isClosedUnder names && thenCase.isClosedUnder names)
      ∧ Sees c scope elseCase.isClosedUnder := by
    apply hsees.parts
    intro names
    rw [Expr.isClosedUnder]
  obtain ⟨hcondition, hthenSees⟩ := hboth.parts fun _ => rfl
  have hthenFits := hfits.right.left
  have helseFits := hfits.right.right
  have helse : Replays m (Event.IsSafe m registry calleeIds)
      (Expr.callIds thenCase.nodes ++ Expr.callIds elseCase.nodes)
      (do lookAt fuel c scope thenCase; eval fuel c scope elseCase)
      (do
        lookAt fuel (c.inPreview sharing) scope thenCase
        eval fuel (c.inPreview sharing) scope elseCase) :=
    taken_replays ih hc hthenFits helseFits hfits.right.disjoint helseSees
  have hthen : Replays m (Event.IsSafe m registry calleeIds)
      (Expr.callIds thenCase.nodes ++ Expr.callIds elseCase.nodes)
      (do
        let value ← eval fuel c scope thenCase
        lookAt fuel c scope elseCase
        pure value)
      (do
        let value ← eval fuel (c.inPreview sharing) scope thenCase
        lookAt fuel (c.inPreview sharing) scope elseCase
        pure value) := by
    apply Replays.bind (ih.eval thenCase hc hthenFits hthenSees) _ hfits.right.disjoint
    intro value
    apply Replays.andThen (ih.lookAt elseCase hc helseFits)
    intro _
    exact Replays.done
  have hneither (value : Value) : Replays m (Event.IsSafe m registry calleeIds)
      (Expr.callIds thenCase.nodes ++ Expr.callIds elseCase.nodes)
      (do lookAt fuel c scope thenCase; lookAt fuel c scope elseCase; pure value)
      (do
        lookAt fuel (c.inPreview sharing) scope thenCase
        lookAt fuel (c.inPreview sharing) scope elseCase
        pure value) := by
    apply Replays.bind (ih.lookAt thenCase hc hthenFits) _ hfits.right.disjoint
    intro _
    apply Replays.andThen (ih.lookAt elseCase hc helseFits)
    intro _
    exact Replays.done
  have hdisjoint := hfits.disjoint
  rw [evalNode, evalNode, Expr.callIds_append]
  rw [Expr.callIds_append] at hdisjoint ⊢
  apply Replays.bind (ih.eval condition hc hfits.left hcondition) _ hdisjoint
  intro condition
  cases condition with
  | bool b =>
    cases b with
    | false => exact helse
    | true => exact hthen
  | null => exact helse
  | incomplete | failure | errorRail => exact hneither _
  | _ => exact hthen

/-- The code that is not taken may stand before or after the other. -/
theorem featureFlag_replays (ih : Replayed m registry calleeIds sharing fuel) (id : NodeId)
    (condition oldCode newCode : Expr) (hc : c.IsMain m registry)
    (hfits : Fits registry calleeIds (condition.nodes ++ (oldCode.nodes ++ newCode.nodes)))
    (hsees : Sees c scope (Expr.isClosedUnder · (.featureFlag id condition oldCode newCode))) :
  Replays m (Event.IsSafe m registry calleeIds)
    (Expr.callIds (condition.nodes ++ (oldCode.nodes ++ newCode.nodes)))
    (evalNode (fuel + 1) c scope (.featureFlag id condition oldCode newCode))
    (evalNode (fuel + 1) (c.inPreview sharing) scope (.featureFlag id condition oldCode newCode))
  := by
  obtain ⟨hboth, hnewSees⟩ : Sees c scope (fun names =>
      condition.isClosedUnder names && oldCode.isClosedUnder names)
      ∧ Sees c scope newCode.isClosedUnder := by
    apply hsees.parts
    intro names
    rw [Expr.isClosedUnder]
  obtain ⟨hcondition, holdSees⟩ := hboth.parts fun _ => rfl
  have holdFits := hfits.right.left
  have hnewFits := hfits.right.right
  have hnew : Replays m (Event.IsSafe m registry calleeIds)
      (Expr.callIds oldCode.nodes ++ Expr.callIds newCode.nodes)
      (do lookAt fuel c scope oldCode; eval fuel c scope newCode)
      (do
        lookAt fuel (c.inPreview sharing) scope oldCode
        eval fuel (c.inPreview sharing) scope newCode) :=
    taken_replays ih hc holdFits hnewFits hfits.right.disjoint hnewSees
  have hold : Replays m (Event.IsSafe m registry calleeIds)
      (Expr.callIds oldCode.nodes ++ Expr.callIds newCode.nodes)
      (do lookAt fuel c scope newCode; eval fuel c scope oldCode)
      (do
        lookAt fuel (c.inPreview sharing) scope newCode
        eval fuel (c.inPreview sharing) scope oldCode) := by
    have hswapped : ∀ id ∈ Expr.callIds newCode.nodes, id ∉ Expr.callIds oldCode.nodes :=
      fun id hid hid' => hfits.right.disjoint id hid' hid
    apply (taken_replays ih hc hnewFits holdFits hswapped holdSees).mono
    intro id hid
    exact List.mem_append.mpr (List.mem_append.mp hid).symm
  have hdisjoint := hfits.disjoint
  rw [evalNode, evalNode, Expr.callIds_append]
  rw [Expr.callIds_append] at hdisjoint ⊢
  apply Replays.bind (Replays.caught (ih.eval condition hc hfits.left hcondition)) _ hdisjoint
  intro condition
  rcases condition with reason | value
  · exact hold
  · cases value with
    | bool b =>
      cases b with
      | false => exact hold
      | true => exact hnew
    | _ => exact hold

/-- A callee that is a function value stands for the function itself. -/
theorem eval_functionValue {id : NodeId} {name : FunctionName} {w w' : World}
    {value : Value} (hrun : eval fuel c scope (.functionValue id name) w = (.done value, w')) :
  value = .named name
  := by
  cases fuel with
  | zero => cases hrun
  | succ fuel =>
    rw [eval] at hrun
    obtain ⟨first, w₁, hnode, hrun⟩ := bind_eq_done hrun
    obtain ⟨_, w₂, -, hrun⟩ := bind_eq_done hrun
    cases hrun
    cases fuel with
    | zero => cases hnode
    | succ fuel =>
      rw [evalNode] at hnode
      cases hnode
      rfl

/-- The name of a function needs no replay. -/
theorem eval_functionValue_replays {safe : Context × Event → Prop}
    (hc : c.IsMain m registry) {id : NodeId} {name : FunctionName} :
  Replays m safe [] (eval fuel c scope (.functionValue id name))
    (eval fuel (c.inPreview sharing) scope (.functionValue id name))
  := by
  cases fuel with
  | zero => exact Replays.outOfFuel
  | succ fuel =>
    have hnode : Replays m safe [] (evalNode fuel c scope (.functionValue id name))
        (evalNode fuel (c.inPreview sharing) scope (.functionValue id name)) := by
      cases fuel with
      | zero => exact Replays.outOfFuel
      | succ fuel =>
        rw [evalNode, evalNode]
        exact Replays.done
    rw [eval, eval]
    apply Replays.andThen hnode
    intro value
    apply Replays.andThen
      (Replays.report (hc.inPreview sharing).toplevel (hc.inPreview sharing).stack)
    intro _
    exact Replays.done

/-- The value of an expression is reported for its node. -/
theorem eval_reported {e : Expr} {w w' : World} {value : Value}
    (hrun : eval fuel c scope e w = (.done value, w')) :
  (c, .report c.onPath e.id value) ∈ w'.log
  := by
  cases fuel with
  | zero => cases hrun
  | succ fuel =>
    rw [eval] at hrun
    obtain ⟨first, w₁, -, hrun⟩ := bind_eq_done hrun
    obtain ⟨_, w₂, hreport, hrun⟩ := bind_eq_done hrun
    cases hrun
    rw [Run.log_of_report hreport]
    exact List.mem_cons_self

/-- The nodes of the callee of a call. -/
def calleeNodes (e callee : Expr) : List Expr :=
  if e.directCallee?.isSome then [] else callee.nodes

/-- The callee of an application is replayed: the name of a function, or code of its own. -/
theorem callee_replays (ih : Replayed m registry calleeIds sharing fuel) {id : NodeId}
    {callee : Expr} {args : List Expr} {position : PipePosition} {railUse : RailUse}
    (hc : c.IsMain m registry)
    (hfits : Fits registry calleeIds (.apply id callee args position railUse
      :: (calleeNodes (.apply id callee args position railUse) callee
        ++ Expr.nodesOfList args)))
    (hsees : Sees c scope callee.isClosedUnder) :
  Replays m (Event.IsSafe m registry calleeIds)
      (Expr.callIds (calleeNodes (.apply id callee args position railUse) callee))
      (eval fuel c scope callee) (eval fuel (c.inPreview sharing) scope callee)
    ∧ ∀ {w w' value}, eval fuel c scope callee w = (.done value, w') →
      (∀ entry ∈ w'.log, Event.IsSafe m registry calleeIds entry) →
      registry.ReplaysValue value
  := by
  by_cases hdirect : ∃ functionId name, callee = .functionValue functionId name
  · obtain ⟨functionId, name, rfl⟩ := hdirect
    use eval_functionValue_replays hc
    intro w w' value hrun _ f hf
    cases eval_functionValue hrun
    cases hf
    exact ⟨name, rfl, (hfits.replayable _ List.mem_cons_self).direct name rfl⟩
  · have hcallee : (Expr.apply id callee args position railUse).calleeId? = some callee.id := by
      cases callee <;> first | rfl | exact absurd ⟨_, _, rfl⟩ hdirect
    have hnodes : calleeNodes (.apply id callee args position railUse) callee
        = callee.nodes := by
      cases callee <;> first | rfl | exact absurd ⟨_, _, rfl⟩ hdirect
    rw [hnodes] at hfits ⊢
    use ih.eval callee hc hfits.tail.left hsees
    intro w w' value hrun hsafe
    apply hsafe _ (eval_reported hrun) hc.toplevel
    apply hfits.callees
    rw [Expr.calleeIds, List.filterMap_cons_some hcallee]
    exact List.mem_cons_self

/-- The result of a call in a pipe is reported for the pipe, too. -/
theorem pipe_replays {safe : Context × Event → Prop} (hc : c.IsMain m registry)
    (sharing : Mode → Nat → Sharing) (position : PipePosition) (result : Value) :
  Replays m safe []
    (do
      match position with
      | .inPipe pipe => Run.report c c.onPath pipe result
      | .notInPipe => pure ()
      pure result)
    (do
      match position with
      | .inPipe pipe => Run.report (c.inPreview sharing) (c.inPreview sharing).onPath pipe result
      | .notInPipe => pure ()
      pure result)
  := by
  cases position with
  | inPipe pipe =>
    apply Replays.andThen
      (Replays.report (hc.inPreview sharing).toplevel (hc.inPreview sharing).stack)
    intro _
    exact Replays.done
  | notInPipe => exact Replays.done

/-- An application is replayed with its callee and its arguments. -/
theorem apply_replays (ih : Replayed m registry calleeIds sharing fuel)
    (havoids : registry.Avoids m) (id : NodeId) (callee : Expr) (args : List Expr)
    (position : PipePosition) (railUse : RailUse) (hc : c.IsMain m registry)
    (hfits : Fits registry calleeIds (Expr.apply id callee args position railUse).nodes)
    (hsees : Sees c scope (Expr.apply id callee args position railUse).isClosedUnder) :
  Replays m (Event.IsSafe m registry calleeIds)
    (Expr.callIds (Expr.apply id callee args position railUse).nodes)
    (evalNode (fuel + 1) c scope (.apply id callee args position railUse))
    (evalNode (fuel + 1) (c.inPreview sharing) scope (.apply id callee args position railUse))
  := by
  rw [Expr.nodes] at hfits ⊢
  rw [evalNode, evalNode]
  change Fits registry calleeIds (_ :: (calleeNodes _ callee ++ _)) at hfits
  change Replays m _ (id :: Expr.callIds (calleeNodes
    (.apply id callee args position railUse) callee ++ Expr.nodesOfList args)) _ _
  obtain ⟨hcalleeSees, hargsSees⟩ : Sees c scope callee.isClosedUnder
      ∧ Sees c scope (Expr.areClosedUnder · args) := by
    apply hsees.parts
    intro names
    rw [Expr.isClosedUnder]
  obtain ⟨hnew, -⟩ : id ∉ Expr.callIds (calleeNodes (.apply id callee args position railUse)
      callee ++ Expr.nodesOfList args) ∧ _ := List.nodup_cons.mp hfits.distinct
  rw [Expr.callIds_append] at hnew ⊢
  rw [List.mem_append, not_or] at hnew
  obtain ⟨hnewCallee, hnewArgs⟩ := hnew
  obtain ⟨hcallee, hkind⟩ := callee_replays ih hc hfits hcalleeSees
  have hargs := ih.evalArgs args hc hfits.tail.right hargsSees
  have hlater : ∀ other ∈ Expr.callIds (Expr.nodesOfList args), other ∉ [id] := by
    intro other hother hid
    rw [List.mem_singleton.mp hid] at hother
    exact hnewArgs hother
  have hearlier : ∀ other ∈ Expr.callIds (calleeNodes
      (.apply id callee args position railUse) callee),
      other ∉ Expr.callIds (Expr.nodesOfList args) ++ [id] := by
    intro other hother hmem
    rcases List.mem_append.mp hmem with hmem | hid
    · exact hfits.tail.disjoint other hother hmem
    · rw [List.mem_singleton.mp hid] at hother
      exact hnewCallee hother
  have hsub : ∀ other ∈ Expr.callIds (calleeNodes
      (.apply id callee args position railUse) callee)
        ++ (Expr.callIds (Expr.nodesOfList args) ++ [id]),
      other ∈ id :: (Expr.callIds (calleeNodes (.apply id callee args position railUse) callee)
        ++ Expr.callIds (Expr.nodesOfList args)) := by
    intro other hother
    simp only [List.mem_append, List.mem_cons, List.not_mem_nil, or_false] at hother ⊢
    tauto
  apply Replays.mono _ hsub
  apply hcallee.bindWhere hkind _ _ hearlier
  · intro value
    apply hargs.grows.bind
    intro values
    apply applyValue_grows.bind
    intro result
    have hpipe : Replays m (Event.IsSafe m registry calleeIds) [] _ _ :=
      pipe_replays hc sharing position result
    exact hpipe.grows
  · intro value hvalue
    apply hargs.bind _ hlater
    intro values
    apply (applyValue_replays hc havoids hvalue).andThen
    intro result
    exact pipe_replays hc sharing position result

/-- A binding is replayed with its value and its body. -/
theorem letIn_replays (ih : Replayed m registry calleeIds sharing fuel) (id : NodeId)
    (name : String) (value body : Expr) (hc : c.IsMain m registry)
    (hfits : Fits registry calleeIds (Expr.letIn id name value body).nodes)
    (hsees : Sees c scope (Expr.letIn id name value body).isClosedUnder) :
  Replays m (Event.IsSafe m registry calleeIds) (Expr.callIds (Expr.letIn id name value body).nodes)
    (evalNode (fuel + 1) c scope (.letIn id name value body))
    (evalNode (fuel + 1) (c.inPreview sharing) scope (.letIn id name value body))
  := by
  rw [Expr.nodes] at hfits ⊢
  rw [evalNode, evalNode, Expr.callIds_cons rfl, Expr.callIds_append]
  have hvalue : Sees c scope value.isClosedUnder := hsees.imp fun names h => by
    rw [Expr.isClosedUnder, Bool.and_eq_true] at h
    exact h.1
  apply Replays.bind (ih.eval value hc hfits.tail.left hvalue) _ hfits.tail.disjoint
  intro first
  split
  · exact Replays.done
  · apply ih.eval body hc hfits.tail.right
    rcases hsees with hmode | ⟨names, hbinds, hclosed⟩
    · exact .inl hmode
    · dsimp only at hclosed
      rw [Expr.isClosedUnder, Bool.and_eq_true] at hclosed
      refine .inr ⟨_, ?_, hclosed.2⟩
      split
      · exact hbinds
      · exact hbinds.insert name first

/-- A list is replayed with its items. -/
theorem list_replays (ih : Replayed m registry calleeIds sharing fuel) (id : NodeId)
    (items : List Expr) (hc : c.IsMain m registry)
    (hfits : Fits registry calleeIds (Expr.list id items).nodes)
    (hsees : Sees c scope (Expr.list id items).isClosedUnder) :
  Replays m (Event.IsSafe m registry calleeIds) (Expr.callIds (Expr.list id items).nodes)
    (evalNode (fuel + 1) c scope (.list id items))
    (evalNode (fuel + 1) (c.inPreview sharing) scope (.list id items))
  := by
  rw [Expr.nodes] at hfits ⊢
  rw [evalNode, evalNode, Expr.callIds_cons rfl]
  have hitems : Sees c scope (Expr.areClosedUnder · items) := hsees.imp fun names h => by
    rwa [Expr.isClosedUnder] at h
  apply Replays.andThen (ih.evalItems items hc hfits.tail hitems)
  rintro (rail | values)
  · exact Replays.done
  · exact Replays.done

/-- A record is replayed with its fields. -/
theorem record_replays (ih : Replayed m registry calleeIds sharing fuel) (id : NodeId)
    (fields : List (String × Expr)) (hc : c.IsMain m registry)
    (hfits : Fits registry calleeIds (Expr.record id fields).nodes)
    (hsees : Sees c scope (Expr.record id fields).isClosedUnder) :
  Replays m (Event.IsSafe m registry calleeIds) (Expr.callIds (Expr.record id fields).nodes)
    (evalNode (fuel + 1) c scope (.record id fields))
    (evalNode (fuel + 1) (c.inPreview sharing) scope (.record id fields))
  := by
  rw [Expr.nodes] at hfits ⊢
  rw [evalNode, evalNode, Expr.callIds_cons rfl]
  have hfields : Sees c scope (Expr.fieldsAreClosedUnder · fields) :=
    hsees.imp fun names h => by rwa [Expr.isClosedUnder] at h
  apply Replays.andThen (ih.evalFields fields hc hfits.tail hfields)
  intro pairs
  exact Replays.done

/-- A variable that is bound means the same in the preview. -/
theorem variable_replays {safe : Context × Event → Prop} (id : NodeId) (name : String)
    (hsees : Sees c scope (Expr.variable id name).isClosedUnder) :
  Replays m safe [] (evalNode (fuel + 1) c scope (.variable id name))
    (evalNode (fuel + 1) (c.inPreview sharing) scope (.variable id name))
  := by
  rw [evalNode, evalNode]
  cases hget : Fields.get? name scope with
  | some value => exact Replays.done
  | none =>
    rcases hsees with hmode | ⟨names, hbinds, hclosed⟩
    · rw [hmode]
      exact Replays.done
    · dsimp only at hclosed
      rw [Expr.isClosedUnder, decide_eq_true_eq] at hclosed
      have hbound := hbinds name hclosed
      rw [hget] at hbound
      cases hbound

/-- A field access is replayed with its object. -/
theorem fieldAccess_replays (ih : Replayed m registry calleeIds sharing fuel) (id : NodeId)
    (object : Expr) (field : String) (hc : c.IsMain m registry)
    (hfits : Fits registry calleeIds (Expr.fieldAccess id object field).nodes)
    (hsees : Sees c scope (Expr.fieldAccess id object field).isClosedUnder) :
  Replays m (Event.IsSafe m registry calleeIds)
    (Expr.callIds (Expr.fieldAccess id object field).nodes)
    (evalNode (fuel + 1) c scope (.fieldAccess id object field))
    (evalNode (fuel + 1) (c.inPreview sharing) scope (.fieldAccess id object field))
  := by
  rw [Expr.nodes] at hfits ⊢
  rw [evalNode, evalNode, Expr.callIds_cons rfl]
  have hobject : Sees c scope object.isClosedUnder := hsees.imp fun names h => by
    rwa [Expr.isClosedUnder] at h
  apply Replays.andThen (ih.eval object hc hfits.tail hobject)
  intro value
  cases value <;> exact Replays.done

/-- A match is replayed with its scrutinee and its cases. -/
theorem matchCases_replays (ih : Replayed m registry calleeIds sharing fuel) (id : NodeId)
    (scrutinee : Expr) (cases : List (Pattern × Expr)) (hc : c.IsMain m registry)
    (hfits : Fits registry calleeIds (Expr.matchCases id scrutinee cases).nodes)
    (hsees : Sees c scope (Expr.matchCases id scrutinee cases).isClosedUnder) :
  Replays m (Event.IsSafe m registry calleeIds)
    (Expr.callIds (Expr.matchCases id scrutinee cases).nodes)
    (evalNode (fuel + 1) c scope (.matchCases id scrutinee cases))
    (evalNode (fuel + 1) (c.inPreview sharing) scope (.matchCases id scrutinee cases))
  := by
  rw [Expr.nodes] at hfits ⊢
  rw [evalNode, evalNode, Expr.callIds_cons rfl, Expr.callIds_append]
  obtain ⟨hscrutinee, hcases⟩ : Sees c scope scrutinee.isClosedUnder
      ∧ Sees c scope (Expr.casesAreClosedUnder · cases) := by
    apply hsees.parts
    intro names
    rw [Expr.isClosedUnder]
  apply Replays.bind (ih.eval scrutinee hc hfits.tail.left hscrutinee) _
    hfits.tail.disjoint
  intro value
  apply Replays.andThen (ih.evalCases cases hc hfits.tail.right hcases)
  intro chosen
  cases chosen with
  | some result => exact Replays.done
  | none =>
    dsimp only
    split
    · exact Replays.done
    · exact Replays.done

/-- The evaluation of a node of the main code is replayed, by cases on the node. -/
theorem evalNode_replays (ih : Replayed m registry calleeIds sharing fuel)
    (havoids : registry.Avoids m) (e : Expr) (hc : c.IsMain m registry)
    (hfits : Fits registry calleeIds e.nodes)
    (hsees : Sees c scope e.isClosedUnder) :
  Replays m (Event.IsSafe m registry calleeIds) (Expr.callIds e.nodes)
    (evalNode (fuel + 1) c scope e) (evalNode (fuel + 1) (c.inPreview sharing) scope e)
  := by
  cases e with
  | blank | integer | float | bool | null | string =>
    rw [evalNode, evalNode]
    exact Replays.done
  | functionValue id name =>
    exact absurd rfl ((hfits.replayable _ (Expr.self_mem_nodes _)).notFunction id name)
  | lambda id parameters body =>
    have hself := hfits.replayable _ (Expr.self_mem_nodes _)
    exact absurd rfl (hself.notLambda id parameters body)
  | character id text =>
    rw [evalNode, evalNode]
    cases Value.ofCharacter text with
    | ok value => exact Replays.done
    | error error => exact Replays.done
  | letIn id name value body => exact letIn_replays ih id name value body hc hfits hsees
  | list id items => exact list_replays ih id items hc hfits hsees
  | record id fields => exact record_replays ih id fields hc hfits hsees
  | «variable» id name => exact variable_replays id name hsees
  | fieldAccess id object field => exact fieldAccess_replays ih id object field hc hfits hsees
  | conditional id condition thenCase elseCase =>
    rw [Expr.nodes] at hfits ⊢
    rw [Expr.callIds_cons rfl]
    exact conditional_replays ih id condition thenCase elseCase hc hfits.tail hsees
  | featureFlag id condition oldCode newCode =>
    rw [Expr.nodes] at hfits ⊢
    rw [Expr.callIds_cons rfl]
    exact featureFlag_replays ih id condition oldCode newCode hc hfits.tail hsees
  | constructor id name args =>
    rw [Expr.nodes] at hfits ⊢
    rw [Expr.callIds_cons rfl]
    apply constructor_replays ih id name args hc hfits.tail
    exact hsees.imp fun names h => by rwa [Expr.isClosedUnder] at h
  | matchCases id scrutinee cases => exact matchCases_replays ih id scrutinee cases hc hfits hsees
  | apply id callee args position railUse =>
    exact apply_replays ih havoids id callee args position railUse hc hfits hsees

/-! ### Runs -/

/-- With any fuel, whatever the main code does is replayed. -/
theorem replayed (havoids : registry.Avoids m) :
  ∀ fuel, Replayed m registry calleeIds sharing fuel
  | 0 => by
    constructor <;> intros <;> exact Replays.outOfFuel
  | fuel + 1 => by
    have ih := replayed havoids fuel
    exact {
      eval := eval_replays ih
      lookAt := lookAt_replays ih
      evalNode := evalNode_replays ih havoids
      evalArgs := evalArgs_replays ih
      evalItems := evalItems_replays ih
      evalFields := evalFields_replays ih
      evalCases := evalCases_replays ih }

/-- Let a main expression have no lambda, distinct calls, and function values only where
they are called, each of a function that is replayed. Let the first run report no other
function for a callee, and let the expression compare no two values that hide NaN. Then a
preview on the store that the first run left ends with the same value, whatever maps have
in common then. It reports nodes outside of all calls only, so it evaluates no body of a
function, and it only carries out plain built-ins that the expression calls. -/
theorem eval_replayed (havoids : registry.Avoids m) (hc : c.IsMain m registry) {e : Expr}
    (hnodes : ∀ node ∈ e.nodes, node.IsReplayable registry)
    (hdistinct : (Expr.callIds e.nodes).Nodup)
    (hclosed : e.isClosedUnder (Fields.names scope) = true) {w w' : World} {value : Value}
    (hstore : w.store = .memory .empty) (hrun : eval fuel c scope e w = (.done value, w'))
    (hsafe : ∀ entry ∈ w'.log, Event.IsSafe m registry (Expr.calleeIds e.nodes) entry)
    {w₂ : World} (hstore₂ : w₂.store = w'.store) (sharing : Mode → Nat → Sharing) :
  ∃ w₂' events, eval fuel (c.inPreview sharing) scope e w₂ = (.done value, w₂')
    ∧ w₂'.log = events ++ w₂.log
    ∧ ∀ entry ∈ events, Run.IsReplayed m (Expr.callIds e.nodes) entry
  := by
  have hfits : Fits registry (Expr.calleeIds e.nodes) e.nodes :=
    ⟨hnodes, fun _ hid => hid, hdistinct⟩
  have hreplayed : Replayed m registry (Expr.calleeIds e.nodes) sharing fuel :=
    replayed havoids fuel
  have hreplays := hreplayed.eval e hc hfits (.inr ⟨_, scope.binds_names, hclosed⟩)
  have hmemory : w.store.IsMemory := ⟨_, hstore⟩
  have hfree : w.store.IsFreeAt m (Expr.callIds e.nodes) := by
    intro site hash _ _
    rw [hstore]
    rfl
  obtain ⟨hmemory', -⟩ := hreplays.grows.of_done hmemory hrun
  obtain ⟨-, hreplay⟩ := hreplays.replay hmemory hfree hrun hsafe
  have hagree : w'.store.AgreeAt m (· ∈ Expr.callIds e.nodes) w₂.store := by
    intro site hash _ _
    rw [hstore₂]
  obtain ⟨w₂', hrun₂, -, -, events, hlog, hevents⟩ :=
    hreplay w₂ (hstore₂ ▸ hmemory') hagree
  exact ⟨w₂', events, hrun₂, hlog, hevents⟩

/-- An impure built-in without parameters. -/
def toss : Function where
  name := .stdlib "Coin" "toss" 0
  parameters := []
  returnType := .any
  description := "Tosses a coin"
  previewability := .impure
  deprecation := .current
  implementation := .builtin ⟨fun _ _ => .finish (.ok (.bool true)), false⟩

/-- A function whose body calls the impure built-in. -/
def bet : Function where
  name := .user "bet"
  parameters := []
  returnType := .any
  description := ""
  previewability := .impure
  deprecation := .current
  implementation :=
    .written .user 5 (.apply 1 (.functionValue 2 toss.name) [] .notInPipe .noRail)

/-- The standard library with both functions. -/
def gambling : Registry :=
  Stdlib.registry.addAll [toss, bet]

theorem gambling_avoids :
  gambling.Avoids 0
  := by
  apply Registry.avoids_addAll
  intro f hf origin toplevel body hbody
  simp only [List.mem_cons, List.not_mem_nil, or_false] at hf
  rcases hf with rfl | rfl
  · cases hbody
  · cases hbody
    decide

/-- A call of the function. -/
def callBet : Expr :=
  .apply 1 (.functionValue 2 bet.name) [] .notInPipe .noRail

/-- Whether an event reports no function for one of some callees and is no comparison of
what hides NaN. -/
def isHarmless (calleeIds : List NodeId) : Context × Event → Bool
  | (_, .report _ id value) => !calleeIds.contains id || value.callable?.isNone
  | (_, .invoke f args) => !Stdlib.comparesHiddenNaN f args
  | _ => true

/-- What a harmless event does is safe. -/
theorem isSafe_of_isHarmless {entry : Context × Event}
    (h : isHarmless calleeIds entry = true) :
  Event.IsSafe m registry calleeIds entry
  := by
  obtain ⟨c, event⟩ := entry
  cases event with
  | report executed id value =>
    intro _ hid f hf
    rw [isHarmless, hf, List.contains_iff_mem.mpr hid] at h
    cases h
  | invoke f args =>
    intro _
    rwa [isHarmless, Bool.not_eq_true'] at h
  | _ => trivial

/-- The preview of a call shows what the first run of the function came to. -/
theorem eval_replayed_callBet :
  ∃ w', eval 20 (.start .preview 1 0 gambling []) [] callBet
      { World.fresh ⟨0, 0⟩ with
        store := (eval 20 (.start .real 1 0 gambling []) [] callBet (.fresh ⟨0, 0⟩)).2.store }
    = (.done (.bool true), w')
  := by
  have hc : (Context.start .real 1 0 gambling []).IsMain 0 gambling :=
    ⟨rfl, rfl, rfl, by decide⟩
  have hnodes : ∀ node ∈ callBet.nodes, node.IsReplayable gambling := by
    intro node hnode
    rw [List.mem_singleton.mp hnode]
    constructor
    · exact fun _ _ _ => nofun
    · exact fun _ _ => nofun
    · intro name hname
      cases hname
      exact ⟨bet, rfl, .inl rfl⟩
  have hharmless : (eval 20 (.start .real 1 0 gambling []) [] callBet
      (.fresh ⟨0, 0⟩)).2.log.all (isHarmless (Expr.calleeIds callBet.nodes)) = true := by
    decide +kernel
  have hsafe : ∀ entry ∈
      (eval 20 (.start .real 1 0 gambling []) [] callBet (.fresh ⟨0, 0⟩)).2.log,
      Event.IsSafe 0 gambling (Expr.calleeIds callBet.nodes) entry :=
    fun entry hentry => isSafe_of_isHarmless (List.all_eq_true.mp hharmless entry hentry)
  obtain ⟨w', -, hrun, -⟩ := @eval_replayed 0 gambling 20
    (.start .real 1 0 gambling []) [] gambling_avoids hc callBet hnodes
    (List.pairwise_singleton _ _) rfl (.fresh ⟨0, 0⟩) _ (.bool true) rfl (Prod.ext rfl rfl)
    hsafe
    { World.fresh ⟨0, 0⟩ with
      store := (eval 20 (.start .real 1 0 gambling []) [] callBet (.fresh ⟨0, 0⟩)).2.store }
    rfl fun _ _ => .nothing
  exact ⟨w', hrun⟩

/-- A call of a variable. -/
def callVariable : Expr :=
  .apply 1 (.variable 2 "f") [] .notInPipe .noRail

/-- A function that gives back what it is given. -/
def keep : Function where
  name := .user "keep"
  parameters := [⟨"q", .any, ""⟩]
  returnType := .any
  description := ""
  previewability := .pure
  deprecation := .current
  implementation := .written .user 6 (.variable 7 "q")

/-- Compares a record that holds a number with what the function gives for it. -/
def compareKept : Expr :=
  .letIn 1 "x" (.record 2 [("a", .variable 3 "n")])
    (.apply 4 (.functionValue 5 (.stdlib "" "==" 0))
      [.variable 6 "x",
        .apply 7 (.functionValue 8 keep.name) [.variable 9 "x"] .notInPipe .noRail]
      .notInPipe .noRail)

/-- The standard library with the function. -/
def keeping : Registry :=
  Stdlib.registry.addAll [keep]

theorem keeping_avoids :
  keeping.Avoids 0
  := by
  apply Registry.avoids_addAll
  intro f hf origin toplevel body hbody
  rw [List.mem_singleton.mp hf] at hbody
  cases hbody
  decide

/-- The first run of the comparison, in which the function gives back the same map. -/
def firstRun : Outcome Value × World :=
  eval 20 { Context.start .real 1 0 keeping [] with sharing := fun _ _ => .ofFloats } [("n", .float .nan)]
    compareKept (.fresh ⟨0, 0⟩)

theorem eq_of_passes {b : Bool} {ending : Outcome Value × World}
    (h : Outcome.passes (Value.same · (.bool b)) ending = true) :
  ending.1 = .done (.bool b)
  := by
  obtain ⟨value, w, rfl, hvalue⟩ := Outcome.of_passes h
  rw [Value.same_bool_iff.mp hvalue]

/-- A record with NaN is equal to itself, but in preview not to the one that was recorded,
which has nothing in common with it. -/
theorem not_replayed_compareKept :
  firstRun.1 = .done (.bool true)
    ∧ (eval 20 (.start .preview 1 0 keeping []) [("n", .float .nan)] compareKept
        { World.fresh ⟨0, 0⟩ with store := firstRun.2.store }).1 = .done (.bool false)
  := by
  constructor
  · exact eq_of_passes (by decide +kernel)
  · exact eq_of_passes (by decide +kernel)

/-- The function and the comparison are replayed. -/
theorem compareKept_isReplayable :
  ∀ node ∈ compareKept.nodes, node.IsReplayable keeping
  := by
  have hequals : keeping.Replays (.stdlib "" "==" 0) := by
    refine ⟨_, rfl, .inr ⟨?_, rfl, by decide⟩⟩
    simp [Stdlib.contents, Stdlib.operators]
  have hkeep : keeping.Replays keep.name := ⟨keep, rfl, .inl rfl⟩
  have hnode {e : Expr} (hlambda : ∀ id parameters body, e ≠ .lambda id parameters body)
      (hfunction : ∀ id name, e ≠ .functionValue id name) (hnone : e.directCallee? = none) :
      e.IsReplayable keeping := ⟨hlambda, hfunction, by simp [hnone]⟩
  have hcall {id functionId : NodeId} {name : FunctionName} {args : List Expr}
      (hname : keeping.Replays name) : Expr.IsReplayable keeping
        (.apply id (.functionValue functionId name) args .notInPipe .noRail) :=
    ⟨by rintro _ _ _ ⟨⟩, by rintro _ _ ⟨⟩, fun _ h => Option.some.inj h ▸ hname⟩
  simp only [compareKept, Expr.nodes, Expr.nodesOfList, Expr.nodesOfFields, Expr.directCallee?,
    Option.isSome, if_true, List.nil_append, List.append_nil, List.cons_append,
    List.forall_mem_cons, List.not_mem_nil, false_implies, implies_true, and_true]
  refine ⟨hnode ?_ ?_ rfl, hnode ?_ ?_ rfl, hnode ?_ ?_ rfl, hcall hequals, hnode ?_ ?_ rfl,
    hcall hkeep, hnode ?_ ?_ rfl⟩
  all_goals simp only [ne_eq, reduceCtorEq, not_false_eq_true, implies_true]

/-- A function that a variable is bound to is not replayed: the preview of an impure
built-in is incomplete, since nothing is recorded for it. And a comparison of records with
NaN may have another result in preview, since what was recorded is another map. -/
theorem not_replayed_callVariable :
  (gambling.Avoids 0
      ∧ (∀ node ∈ callVariable.nodes, node.IsReplayable gambling)
      ∧ (Expr.callIds callVariable.nodes).Nodup
      ∧ callVariable.isClosedUnder ["f"] = true
      ∧ (eval 20 (.start .real 1 0 gambling []) [("f", .named toss.name)] callVariable
          (.fresh ⟨0, 0⟩)).1 = .done (.bool true)
      ∧ (eval 20 (.start .preview 1 0 gambling []) [("f", .named toss.name)] callVariable
          { World.fresh ⟨0, 0⟩ with
            store := (eval 20 (.start .real 1 0 gambling []) [("f", .named toss.name)]
              callVariable (.fresh ⟨0, 0⟩)).2.store }).1
          = .done (.incomplete (.node 0 1)))
    ∧ keeping.Avoids 0
    ∧ (∀ node ∈ compareKept.nodes, node.IsReplayable keeping)
    ∧ (Expr.callIds compareKept.nodes).Nodup
    ∧ compareKept.isClosedUnder ["n"] = true
    ∧ firstRun.1 = .done (.bool true)
    ∧ (eval 20 (.start .preview 1 0 keeping []) [("n", .float .nan)] compareKept
        { World.fresh ⟨0, 0⟩ with store := firstRun.2.store }).1 = .done (.bool false)
  := by
  refine ⟨⟨gambling_avoids, ?_, List.pairwise_singleton _ _, rfl, rfl, rfl⟩, keeping_avoids,
    compareKept_isReplayable, by decide +kernel, by decide +kernel, not_replayed_compareKept⟩
  intro node hnode
  have hnodes : callVariable.nodes = [callVariable, .variable 2 "f"] := rfl
  rw [hnodes, List.mem_cons, List.mem_singleton] at hnode
  rcases hnode with rfl | rfl
  · exact ⟨nofun, nofun, nofun⟩
  · exact ⟨nofun, nofun, nofun⟩

end Interpreter

end LiveExpr
