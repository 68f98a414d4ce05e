import LiveExpr.Eval.Execution
import LiveExpr.Proofs.Confinement
import LiveExpr.Proofs.Patterns
import LiveExpr.Proofs.Recall

/-!
# Previews agree with execution

A program that only runs pure built-ins has the same value for real and in preview, if
calls with different arguments at one site are told apart by the hash of their arguments.
A preview takes up results instead of calls; each of them was recorded by a call with the
same arguments, whose body has the same value whenever it is previewed again. Main
statement: `analyse_eq_execute`.
-/

namespace LiveExpr

namespace Interpreter

/-! ### Frames of pure programs -/

namespace Frame

/-- Whether a frame does what preview and execution do alike: in real execution variables
are bound and functions known, no written function is entered while it is under way, and
built-ins are pure or, in preview, not carried out. -/
def isClean (s : Frame) : Bool :=
  match s.activation with
  | .evalNode c scope (.variable _ name) =>
    c.mode == .preview || (Fields.get? name scope).isSome
  | .call c name _ args _ _ =>
    c.mode == .preview || (args.find? Value.isErrorRail).isSome
      || (Assoc.get? name c.registry).isSome
  | .carryOut c f _ _ => f.isBuiltin || (c.stack.outerCall? f.name).isNone
  | .carryOutBuiltin c f _ _ _ =>
    f.previewability == .pure || (f.previewability == .impure && c.mode == .preview)
  | _ => true

/-- Whether a frame compares values that both hide NaN. -/
def comparesHiddenNaN (s : Frame) : Bool :=
  match s.activation with
  | .carryOutBuiltin _ f _ _ args => Stdlib.comparesHiddenNaN f args
  | _ => false

/-- The call whose body a frame is to carry out. -/
def bodyCall? (s : Frame) : Option (CallSite × List Value) :=
  match s.activation with
  | .carryOutBody _ _ _ _ site args => some (site, args)
  | _ => none

/-- Whether all frames that a frame reaches are clean and compare nothing that hides NaN,
with calls among some. -/
def IsSafe (base : Context) (called : CallSite → List Value → Prop) (s : Frame) : Prop :=
  ∀ t, s.Reaches t → base.IsBasedOn t.context ∧ t.isClean = true
    ∧ t.comparesHiddenNaN = false
    ∧ ∀ site args, t.bodyCall? = some (site, args) → called site args

variable {base : Context} {called : CallSite → List Value → Prop} {s t : Frame}

/-- What a safe frame calls is safe. -/
theorem IsSafe.call (h : s.IsSafe base called) (ht : t ∈ s.calls) :
  t.IsSafe base called
  := fun u hu => h u (.step ht hu)

theorem IsSafe.forall_calls {fuel : Nat} {activation : Activation} {w : World}
    (h : IsSafe base called ⟨fuel + 1, activation, w⟩) :
  ∀ t ∈ callsOf fuel w activation, t.IsSafe base called
  := fun _ ht => h.call ht

/-- A safe frame is at work in a context of the run. -/
theorem IsSafe.isBasedOn (h : s.IsSafe base called) :
  base.IsBasedOn s.context
  := (h s (.refl s)).1

/-- A safe frame does nothing that a preview does otherwise. -/
theorem IsSafe.isClean (h : s.IsSafe base called) :
  s.isClean = true
  := (h s (.refl s)).2.1

/-- A safe frame compares nothing that holds a hidden NaN. -/
theorem IsSafe.comparesHiddenNaN (h : s.IsSafe base called) :
  s.comparesHiddenNaN = false
  := (h s (.refl s)).2.2.1

/-- The calls of safe frames are among those of the run. -/
theorem IsSafe.isCalled (h : s.IsSafe base called) {site : CallSite} {args : List Value}
    (hcall : s.bodyCall? = some (site, args)) :
  called site args
  := (h s (.refl s)).2.2.2 site args hcall

end Frame

/-! ### Mirrored evaluation -/

open Run (IsMirrored)

variable {base : Context} {called : CallSite → List Value → Prop}

/-- What holds of evaluation with some fuel, from frames that are safe. -/
structure Mirrored (base : Context) (called : CallSite → List Value → Prop) (fuel : Nat) :
    Prop where
  eval : ∀ {c scope w} e, Frame.IsSafe base called ⟨fuel, .eval c scope e, w⟩ →
    MirroredAt base called fuel c (eval fuel c scope e) (fun m c' => eval m c' scope e) w
  lookAt : ∀ {c scope w} e, Frame.IsSafe base called ⟨fuel, .lookAt c scope e, w⟩ →
    MirroredAt base called fuel c (lookAt fuel c scope e) (fun m c' => lookAt m c' scope e) w
  evalNode : ∀ {c scope w} e, Frame.IsSafe base called ⟨fuel, .evalNode c scope e, w⟩ →
    MirroredAt base called fuel c (evalNode fuel c scope e)
      (fun m c' => evalNode m c' scope e) w
  evalArgs : ∀ {c scope w} es, Frame.IsSafe base called ⟨fuel, .evalArgs c scope es, w⟩ →
    MirroredAt base called fuel c (evalArgs fuel c scope es)
      (fun m c' => evalArgs m c' scope es) w
  evalItems : ∀ {c scope w} es, Frame.IsSafe base called ⟨fuel, .evalItems c scope es, w⟩ →
    MirroredAt base called fuel c (evalItems fuel c scope es)
      (fun m c' => evalItems m c' scope es) w
  evalFields : ∀ {c scope w} fields,
    Frame.IsSafe base called ⟨fuel, .evalFields c scope fields, w⟩ →
    MirroredAt base called fuel c (evalFields fuel c scope fields)
      (fun m c' => evalFields m c' scope fields) w
  evalCases : ∀ {c scope value chosen w} cases,
    Frame.IsSafe base called ⟨fuel, .evalCases c scope value cases chosen, w⟩ →
    MirroredAt base called fuel c (evalCases fuel c scope value cases chosen)
      (fun m c' => evalCases m c' scope value cases chosen) w
  applyValue : ∀ {c id callee args position railUse w},
    Frame.IsSafe base called ⟨fuel, .applyValue c id callee args position railUse, w⟩ →
    MirroredAt base called fuel c (applyValue fuel c id callee args position railUse)
      (fun m c' => applyValue m c' id callee args position railUse) w
  applyCallable : ∀ {c id f args position railUse w},
    Frame.IsSafe base called ⟨fuel, .applyCallable c id f args position railUse, w⟩ →
    MirroredAt base called fuel c (applyCallable fuel c id f args position railUse)
      (fun m c' => applyCallable m c' id f args position railUse) w
  call : ∀ {c name id args position railUse w},
    Frame.IsSafe base called ⟨fuel, .call c name id args position railUse, w⟩ →
    MirroredAt base called fuel c (call fuel c name id args position railUse)
      (fun m c' => call m c' name id args position railUse) w
  carryOut : ∀ {c f id args w}, Frame.IsSafe base called ⟨fuel, .carryOut c f id args, w⟩ →
    Assoc.get? f.name base.registry = some f →
    MirroredAt base called fuel c (carryOut fuel c f id args)
      (fun m c' => carryOut m c' f id args) w
  carryOutBody : ∀ {c f origin toplevel body id args w},
    Frame.IsSafe base called ⟨fuel, .carryOutBody (c.inCall f.name id) f toplevel body
      (c.site f.name id) args, w⟩ →
    Assoc.get? f.name base.registry = some f →
    f.implementation = .written origin toplevel body → f.name ∉ c.stack.names →
    MirroredAt base called fuel c
      (carryOutBody fuel (c.inCall f.name id) f toplevel body (c.site f.name id) args)
      (fun m c' => carryOutBody m (c'.inCall f.name id) f toplevel body
        (c.site f.name id) args) w
  carryOutBuiltin : ∀ {c f b site args w},
    Frame.IsSafe base called ⟨fuel, .carryOutBuiltin c f b site args, w⟩ →
    Assoc.get? f.name base.registry = some f → f.implementation = .builtin b →
    site.name = f.name →
    MirroredAt base called fuel c (carryOutBuiltin fuel c f b site args)
      (fun m c' => carryOutBuiltin m c' f b site args) w
  runSteps : ∀ {c caller w} step, Frame.IsSafe base called ⟨fuel, .runSteps c caller step, w⟩ →
    MirroredAt base called fuel c (Run.caught (runSteps fuel c caller step))
      (fun m c' => Run.caught (runSteps m c' caller step)) w

variable {fuel : Nat} {c : Context} {scope : Scope} {w : World}

open Interpreter.Frame (forall_of_after)

theorem reportParameters_isSilent (parameters : List (NodeId × String)) :
  Run.IsSilent (reportParameters c parameters)
  := by
  induction parameters with
  | nil => exact Run.IsSilent.done
  | cons parameter rest ih =>
    apply Run.IsSilent.bind Run.report_isSilent
    intro _
    exact ih

theorem reportPattern_isSilent (executed : Bool) (reports : List (NodeId × Value)) :
  Run.IsSilent (reportPattern c executed reports)
  := by
  induction reports with
  | nil => exact Run.IsSilent.done
  | cons report rest ih =>
    apply Run.IsSilent.bind Run.report_isSilent
    intro _
    exact ih

/-- The evaluation of an expression is mirrored if that of the node is. -/
theorem eval_mirrored (ih : Mirrored base called fuel) (e : Expr)
    (hs : Frame.IsSafe base called ⟨fuel + 1, .eval c scope e, w⟩) :
  MirroredAt base called (fuel + 1) c (eval (fuel + 1) c scope e)
    (fun m c' => eval m c' scope e) w
  := by
  apply IsMirrored.succ fun _ => rfl
  simp only [eval]
  have hnode := hs.call List.mem_cons_self
  apply IsMirrored.bind (ih.evalNode e hnode)
  intro value w' _
  apply IsMirrored.skip Run.report_isSilent fun _ => Run.report_isSilent
  intro _ _ _
  exact IsMirrored.done fun _ _ => rfl

/-- A look at code is mirrored by a look. -/
theorem lookAt_mirrored (ih : Mirrored base called fuel) (e : Expr)
    (hs : Frame.IsSafe base called ⟨fuel + 1, .lookAt c scope e, w⟩) :
  MirroredAt base called (fuel + 1) c (lookAt (fuel + 1) c scope e)
    (fun m c' => lookAt m c' scope e) w
  := by
  apply IsMirrored.succ fun _ => rfl
  simp only [lookAt]
  have heval := hs.call List.mem_cons_self
  apply IsMirrored.bind (IsMirrored.inside (ih.eval e heval)
    (fun _ hc' => hc'.lookAside) fun _ hname => hname)
  intro _ _ _
  exact IsMirrored.done fun _ _ => rfl

/-- Arguments are mirrored one after another. -/
theorem evalArgs_mirrored (ih : Mirrored base called fuel) (es : List Expr)
    (hs : Frame.IsSafe base called ⟨fuel + 1, .evalArgs c scope es, w⟩) :
  MirroredAt base called (fuel + 1) c (evalArgs (fuel + 1) c scope es)
    (fun m c' => evalArgs m c' scope es) w
  := by
  apply IsMirrored.succ fun _ => rfl
  cases es with
  | nil =>
    simp only [evalArgs]
    exact IsMirrored.done fun _ _ => rfl
  | cons e rest =>
    simp only [evalArgs]
    have hcalls := hs.forall_calls
    obtain ⟨hvalue, hafter⟩ := List.forall_mem_cons.mp hcalls
    apply IsMirrored.bind (ih.eval e hvalue)
    intro value w' hrun
    have hrest := List.forall_mem_singleton.mp (forall_of_after hafter hrun)
    apply IsMirrored.bind (ih.evalArgs rest hrest)
    intro values _ _
    exact IsMirrored.done fun _ _ => rfl

/-- Items are mirrored one after another, up to the first on the error rail. -/
theorem evalItems_mirrored (ih : Mirrored base called fuel) (es : List Expr)
    (hs : Frame.IsSafe base called ⟨fuel + 1, .evalItems c scope es, w⟩) :
  MirroredAt base called (fuel + 1) c (evalItems (fuel + 1) c scope es)
    (fun m c' => evalItems m c' scope es) w
  := by
  apply IsMirrored.succ fun _ => rfl
  cases es with
  | nil =>
    simp only [evalItems]
    exact IsMirrored.done fun _ _ => rfl
  | cons e rest =>
    simp only [evalItems]
    have hcalls := hs.forall_calls
    obtain ⟨hvalue, hafter⟩ := List.forall_mem_cons.mp hcalls
    apply IsMirrored.bind (ih.eval e hvalue)
    intro value w' hrun
    have hrest := forall_of_after hafter hrun
    split at hrest
    · next hrail =>
      simp only [if_pos hrail]
      exact IsMirrored.done fun _ _ => rfl
    · next hrail =>
      simp only [if_neg hrail]
      have hrest := List.forall_mem_singleton.mp hrest
      apply IsMirrored.bind (ih.evalItems rest hrest)
      intro result _ _
      cases result with
      | ok values => exact IsMirrored.done fun _ _ => rfl
      | error rail => exact IsMirrored.done fun _ _ => rfl

/-- Fields are mirrored one after another. -/
theorem evalFields_mirrored (ih : Mirrored base called fuel) (fields : List (String × Expr))
    (hs : Frame.IsSafe base called ⟨fuel + 1, .evalFields c scope fields, w⟩) :
  MirroredAt base called (fuel + 1) c (evalFields (fuel + 1) c scope fields)
    (fun m c' => evalFields m c' scope fields) w
  := by
  apply IsMirrored.succ fun _ => rfl
  cases fields with
  | nil =>
    simp only [evalFields]
    exact IsMirrored.done fun _ _ => rfl
  | cons field rest =>
    obtain ⟨name, e⟩ := field
    simp only [evalFields]
    have hcalls := hs.forall_calls
    rw [Frame.callsOf] at hcalls
    split at hcalls
    · next hname =>
      simp only [if_pos hname]
      have hrest := List.forall_mem_singleton.mp hcalls
      exact ih.evalFields rest hrest
    · next hname =>
      simp only [if_neg hname]
      obtain ⟨hvalue, hafter⟩ := List.forall_mem_cons.mp hcalls
      apply IsMirrored.bind (ih.eval e hvalue)
      intro value w' hrun
      have hrest := List.forall_mem_singleton.mp (forall_of_after hafter hrun)
      apply IsMirrored.bind (ih.evalFields rest hrest)
      intro pairs _ _
      exact IsMirrored.done fun _ _ => rfl

/-- A case is taken or looked at, its pattern reported, and the other cases follow. -/
theorem tried_mirrored (ih : Mirrored base called fuel) {α : Type} {run : Run α}
    {mirror : Nat → Context → Run α} (hrun : MirroredAt base called fuel c run mirror w)
    (executed : Context → Bool) {reports : List (NodeId × Value)} {value : Value}
    {rest : List (Pattern × Expr)} {chosen : α → Option Value}
    (h : ∀ t ∈ Frame.after run w fun result w =>
        Frame.after (reportPattern c (executed c) reports) w fun _ w =>
          [⟨fuel, .evalCases c scope value rest (chosen result), w⟩],
      t.IsSafe base called) :
  MirroredAt base called fuel c
    (do
      let result ← run
      reportPattern c (executed c) reports
      evalCases fuel c scope value rest (chosen result))
    (fun m c' => do
      let result ← mirror m c'
      reportPattern c' (executed c') reports
      evalCases m c' scope value rest (chosen result)) w
  := by
  apply IsMirrored.bind hrun
  intro result w' hresult
  have hafter := forall_of_after h hresult
  apply IsMirrored.skip (reportPattern_isSilent _ _) fun _ => reportPattern_isSilent _ _
  intro _ w'' hreported
  have hrest := List.forall_mem_singleton.mp (forall_of_after hafter hreported)
  exact ih.evalCases rest hrest

/-- The cases of a match are mirrored: the same one is chosen. -/
theorem evalCases_mirrored (ih : Mirrored base called fuel) {value : Value}
    {chosen : Option Value} (cases : List (Pattern × Expr))
    (hs : Frame.IsSafe base called ⟨fuel + 1, .evalCases c scope value cases chosen, w⟩) :
  MirroredAt base called (fuel + 1) c (evalCases (fuel + 1) c scope value cases chosen)
    (fun m c' => evalCases m c' scope value cases chosen) w
  := by
  apply IsMirrored.succ fun _ => rfl
  cases cases with
  | nil =>
    simp only [evalCases]
    exact IsMirrored.done fun _ _ => rfl
  | cons case rest =>
    obtain ⟨pattern, body⟩ := case
    have hcalls := hs.forall_calls
    rw [Frame.callsOf] at hcalls
    split at hcalls
    · next hmatch =>
      obtain ⟨hbody, hafter⟩ := List.forall_mem_cons.mp hcalls
      rw [evalCases]
      simp only [if_pos hmatch]
      apply IsMirrored.congr
        (tried_mirrored ih (ih.eval body hbody) Context.onPath hafter)
      intro m c' hc'
      rw [evalCases, hc'.toplevel]
      exact if_pos hmatch
    · next hmatch =>
      obtain ⟨hbody, hafter⟩ := List.forall_mem_cons.mp hcalls
      rw [evalCases]
      simp only [if_neg hmatch]
      apply IsMirrored.congr
        (tried_mirrored ih (ih.lookAt body hbody) (fun _ => false) hafter)
      intro m c' hc'
      rw [evalCases, hc'.toplevel]
      exact if_neg hmatch

/-- Code that is not taken is looked at before the other is evaluated. -/
theorem taken_mirrored (ih : Mirrored base called fuel) {other taken : Expr}
    (h : ∀ t ∈ Frame.takenCalls fuel c scope other taken w, t.IsSafe base called) :
  MirroredAt base called fuel c (do lookAt fuel c scope other; eval fuel c scope taken)
    (fun m c' => do lookAt m c' scope other; eval m c' scope taken) w
  := by
  unfold Frame.takenCalls at h
  obtain ⟨hother, hafter⟩ := List.forall_mem_cons.mp h
  apply IsMirrored.bind (ih.lookAt other hother)
  intro _ w' hrun
  have htaken := List.forall_mem_singleton.mp (forall_of_after hafter hrun)
  exact ih.eval taken htaken

/-- Code is looked at after a run. -/
theorem thenLookAt_mirrored (ih : Mirrored base called fuel) {α : Type} {run : Run α}
    {mirror : Nat → Context → Run α} {result : α → Value} {other : Expr}
    (hrun : MirroredAt base called fuel c run mirror w)
    (h : ∀ t ∈ Frame.after run w fun _ w => [⟨fuel, .lookAt c scope other, w⟩],
      t.IsSafe base called) :
  MirroredAt base called fuel c
    (do
      let value ← run
      lookAt fuel c scope other
      pure (result value))
    (fun m c' => do
      let value ← mirror m c'
      lookAt m c' scope other
      pure (result value)) w
  := by
  apply IsMirrored.bind hrun
  intro value w' hvalue
  have hother := List.forall_mem_singleton.mp (forall_of_after h hvalue)
  apply IsMirrored.bind (ih.lookAt other hother)
  intro _ _ _
  exact IsMirrored.done fun _ _ => rfl

/-- The same branch of a conditional is taken. -/
theorem conditional_mirrored (ih : Mirrored base called fuel) (id : NodeId)
    (condition thenCase elseCase : Expr)
    (h : ∀ t ∈ Frame.nodeCalls fuel c scope w (.conditional id condition thenCase elseCase),
      t.IsSafe base called) :
  MirroredAt base called fuel c
    (evalNode (fuel + 1) c scope (.conditional id condition thenCase elseCase))
    (fun m c' => evalNode (m + 1) c' scope (.conditional id condition thenCase elseCase)) w
  := by
  simp only [evalNode]
  obtain ⟨hcondition, hafter⟩ := List.forall_mem_cons.mp h
  apply IsMirrored.bind (ih.eval condition hcondition)
  intro value w' hrun
  have hbranches := forall_of_after hafter hrun
  cases value with
  | bool b =>
    cases b with
    | false => exact taken_mirrored ih hbranches
    | true =>
      obtain ⟨hvalue, hafter⟩ := List.forall_mem_cons.mp hbranches
      exact thenLookAt_mirrored ih (ih.eval thenCase hvalue) hafter
  | null => exact taken_mirrored ih hbranches
  | incomplete | failure | errorRail =>
    obtain ⟨hother, hafter⟩ := List.forall_mem_cons.mp hbranches
    exact thenLookAt_mirrored ih (ih.lookAt thenCase hother) hafter
  | _ =>
    obtain ⟨hvalue, hafter⟩ := List.forall_mem_cons.mp hbranches
    exact thenLookAt_mirrored ih (ih.eval thenCase hvalue) hafter

/-- The same code of a feature flag is taken. -/
theorem featureFlag_mirrored (ih : Mirrored base called fuel) (id : NodeId)
    (condition oldCode newCode : Expr)
    (h : ∀ t ∈ Frame.nodeCalls fuel c scope w (.featureFlag id condition oldCode newCode),
      t.IsSafe base called) :
  MirroredAt base called fuel c
    (evalNode (fuel + 1) c scope (.featureFlag id condition oldCode newCode))
    (fun m c' => evalNode (m + 1) c' scope (.featureFlag id condition oldCode newCode)) w
  := by
  simp only [evalNode]
  obtain ⟨hcondition, hafter⟩ := List.forall_mem_cons.mp h
  apply IsMirrored.bind (IsMirrored.caught (ih.eval condition hcondition))
  intro condition w' hrun
  have hbranches := forall_of_after hafter hrun
  rcases condition with reason | value
  · exact taken_mirrored ih hbranches
  · cases value with
    | bool b =>
      cases b with
      | false => exact taken_mirrored ih hbranches
      | true => exact taken_mirrored ih hbranches
    | _ => exact taken_mirrored ih hbranches

/-- A constructor is mirrored with its payload. -/
theorem constructor_mirrored (ih : Mirrored base called fuel) (id : NodeId) (name : String)
    (args : List Expr)
    (h : ∀ t ∈ Frame.nodeCalls fuel c scope w (.constructor id name args),
      t.IsSafe base called) :
  MirroredAt base called fuel c (evalNode (fuel + 1) c scope (.constructor id name args))
    (fun m c' => evalNode (m + 1) c' scope (.constructor id name args)) w
  := by
  have hpayload {arg : Expr} {make : Value → Value}
      (harg : Frame.IsSafe base called ⟨fuel, .eval c scope arg, w⟩) :
      MirroredAt base called fuel c
        (do let value ← eval fuel c scope arg; pure (wrap make value))
        (fun m c' => do let value ← eval m c' scope arg; pure (wrap make value)) w := by
    apply IsMirrored.bind (ih.eval arg harg)
    intro value _ _
    exact IsMirrored.done fun _ _ => rfl
  unfold evalNode
  dsimp only
  split
  · exact IsMirrored.done fun _ _ => rfl
  · exact hpayload (h _ List.mem_cons_self)
  · exact hpayload (h _ List.mem_cons_self)
  · exact hpayload (h _ List.mem_cons_self)
  · split
    · exact IsMirrored.done fun _ hc' => by rw [hc'.source]
    · exact IsMirrored.done fun _ hc' => by rw [hc'.source]

/-- A binding is mirrored with its value and its body. -/
theorem letIn_mirrored (ih : Mirrored base called fuel) (id : NodeId) (name : String)
    (value body : Expr)
    (h : ∀ t ∈ Frame.nodeCalls fuel c scope w (.letIn id name value body),
      t.IsSafe base called) :
  MirroredAt base called fuel c (evalNode (fuel + 1) c scope (.letIn id name value body))
    (fun m c' => evalNode (m + 1) c' scope (.letIn id name value body)) w
  := by
  simp only [evalNode]
  obtain ⟨hvalue, hafter⟩ := List.forall_mem_cons.mp h
  apply IsMirrored.bind (ih.eval value hvalue)
  intro value w' hrun
  have hbody := forall_of_after hafter hrun
  split at hbody
  · next hrail =>
    simp only [if_pos hrail]
    exact IsMirrored.done fun _ _ => rfl
  · next hrail =>
    simp only [if_neg hrail]
    have hbody := List.forall_mem_singleton.mp hbody
    exact ih.eval body hbody

/-- A variable is mirrored if it is bound, or if both runs are previews. -/
theorem variable_mirrored (id : NodeId) (name : String)
    (hclean : (c.mode == .preview || (Fields.get? name scope).isSome) = true) :
  MirroredAt base called fuel c (evalNode (fuel + 1) c scope (.variable id name))
    (fun m c' => evalNode (m + 1) c' scope (.variable id name)) w
  := by
  simp only [evalNode]
  split
  · exact IsMirrored.done fun _ _ => rfl
  · next hunbound =>
    have hpreview : c.mode = .preview := by
      rw [hunbound] at hclean
      simpa using hclean
    rw [hpreview]
    have hmirror : ∀ c' : Context, c'.Mirrors c →
        (if c'.mode.unboundIsIncomplete then (pure (.incomplete (c'.source id)) : Run Value)
          else pure (Message.unboundVariable (c'.source id) name))
          = pure (.incomplete (c.source id)) := by
      intro c' hc'
      rw [hc'.mode, hc'.source]
      rfl
    exact IsMirrored.congr (IsMirrored.done fun _ _ => rfl) fun _ => hmirror

/-- A lambda is mirrored: only the preview reports its parameters. -/
theorem lambda_mirrored (id : NodeId) (parameters : List (NodeId × String)) (body : Expr) :
  MirroredAt base called fuel c (evalNode (fuel + 1) c scope (.lambda id parameters body))
    (fun m c' => evalNode (m + 1) c' scope (.lambda id parameters body)) w
  := by
  have hmirror : ∀ m c', c'.Mirrors c →
      evalNode (m + 1) c' scope (.lambda id parameters body) = (do
        reportParameters c' parameters
        pure (.lambda parameters scope body)) := by
    intro m c' hc'
    rw [evalNode]
    exact if_pos hc'.mode
  refine IsMirrored.congr ?_ hmirror
  rw [evalNode]
  split
  · apply IsMirrored.skip (reportParameters_isSilent _) fun _ => reportParameters_isSilent _
    intro _ _ _
    exact IsMirrored.done fun _ _ => rfl
  · apply IsMirrored.skipMirror _ fun _ => reportParameters_isSilent _
    exact IsMirrored.done fun _ _ => rfl

/-- A match is mirrored with its scrutinee and its cases. -/
theorem matchCases_mirrored (ih : Mirrored base called fuel) (id : NodeId) (scrutinee : Expr)
    (cases : List (Pattern × Expr))
    (h : ∀ t ∈ Frame.nodeCalls fuel c scope w (.matchCases id scrutinee cases),
      t.IsSafe base called) :
  MirroredAt base called fuel c (evalNode (fuel + 1) c scope (.matchCases id scrutinee cases))
    (fun m c' => evalNode (m + 1) c' scope (.matchCases id scrutinee cases)) w
  := by
  simp only [evalNode]
  obtain ⟨hscrutinee, hafter⟩ := List.forall_mem_cons.mp h
  apply IsMirrored.bind (ih.eval scrutinee hscrutinee)
  intro value w' hrun
  have hcases := List.forall_mem_singleton.mp (forall_of_after hafter hrun)
  apply IsMirrored.bind (ih.evalCases cases hcases)
  intro chosen w'' _
  cases chosen with
  | some result => exact IsMirrored.done fun _ _ => rfl
  | none =>
    dsimp only
    split
    · exact IsMirrored.done fun _ _ => rfl
    · exact IsMirrored.done fun _ hc' => by rw [hc'.source]

/-- An application is mirrored with its callee and its arguments. -/
theorem apply_mirrored (ih : Mirrored base called fuel) (id : NodeId) (callee : Expr)
    (args : List Expr) (position : PipePosition) (railUse : RailUse)
    (h : ∀ t ∈ Frame.nodeCalls fuel c scope w (.apply id callee args position railUse),
      t.IsSafe base called) :
  MirroredAt base called fuel c
    (evalNode (fuel + 1) c scope (.apply id callee args position railUse))
    (fun m c' => evalNode (m + 1) c' scope (.apply id callee args position railUse)) w
  := by
  simp only [evalNode]
  obtain ⟨hcallee, hafter⟩ := List.forall_mem_cons.mp h
  apply IsMirrored.bind (ih.eval callee hcallee)
  intro callee w' hrun
  obtain ⟨hargs, hafter⟩ := List.forall_mem_cons.mp (forall_of_after hafter hrun)
  apply IsMirrored.bind (ih.evalArgs args hargs)
  intro values w'' hrun
  have happly := List.forall_mem_singleton.mp (forall_of_after hafter hrun)
  apply IsMirrored.bind (ih.applyValue happly)
  intro result _ _
  cases position with
  | inPipe pipe =>
    apply IsMirrored.skip Run.report_isSilent fun _ => Run.report_isSilent
    intro _ _ _
    exact IsMirrored.done fun _ _ => rfl
  | notInPipe => exact IsMirrored.done fun _ _ => rfl

/-- The evaluation of a node in a safe frame is mirrored, by cases on the node. -/
theorem evalNode_mirrored (ih : Mirrored base called fuel) (e : Expr)
    (hs : Frame.IsSafe base called ⟨fuel + 1, .evalNode c scope e, w⟩) :
  MirroredAt base called (fuel + 1) c (evalNode (fuel + 1) c scope e)
    (fun m c' => evalNode m c' scope e) w
  := by
  apply IsMirrored.succ fun _ => rfl
  have h := hs.forall_calls
  cases e with
  | blank | integer | float | bool | null | string | functionValue =>
    simp only [evalNode]
    exact IsMirrored.done fun _ hc' => by simp only [hc'.source]
  | character id text =>
    simp only [evalNode]
    split
    · exact IsMirrored.done fun _ _ => rfl
    · exact IsMirrored.done fun _ hc' => by rw [hc'.source]
  | letIn id name value body => exact letIn_mirrored ih id name value body h
  | list id items =>
    simp only [evalNode]
    have hitems := List.forall_mem_singleton.mp h
    apply IsMirrored.bind (ih.evalItems items hitems)
    intro result w' _
    cases result with
    | ok values => exact IsMirrored.done fun _ _ => rfl
    | error rail => exact IsMirrored.done fun _ _ => rfl
  | record id fields =>
    simp only [evalNode]
    have hfields := List.forall_mem_singleton.mp h
    apply IsMirrored.bind (ih.evalFields fields hfields)
    intro pairs w' _
    exact IsMirrored.done fun _ _ => rfl
  | «variable» id name => exact variable_mirrored id name hs.isClean
  | fieldAccess id object field =>
    simp only [evalNode]
    have hobject := List.forall_mem_singleton.mp h
    apply IsMirrored.bind (ih.eval object hobject)
    intro value w' _
    split
    · exact IsMirrored.done fun _ _ => rfl
    · split
      · exact IsMirrored.done fun _ _ => rfl
      · exact IsMirrored.done fun _ hc' => by rw [hc'.source]
  | lambda id parameters body => exact lambda_mirrored id parameters body
  | conditional id condition thenCase elseCase =>
    exact conditional_mirrored ih id condition thenCase elseCase h
  | featureFlag id condition oldCode newCode =>
    exact featureFlag_mirrored ih id condition oldCode newCode h
  | constructor id name args => exact constructor_mirrored ih id name args h
  | matchCases id scrutinee cases => exact matchCases_mirrored ih id scrutinee cases h
  | apply id callee args position railUse =>
    exact apply_mirrored ih id callee args position railUse h

/-! ### Calls -/

/-- The application of a value in a safe frame is mirrored. -/
theorem applyValue_mirrored (ih : Mirrored base called fuel) {id : NodeId} {callee : Value}
    {args : List Value} {position : PipePosition} {railUse : RailUse}
    (hs : Frame.IsSafe base called
      ⟨fuel + 1, .applyValue c id callee args position railUse, w⟩) :
  MirroredAt base called (fuel + 1) c
    (applyValue (fuel + 1) c id callee args position railUse)
    (fun m c' => applyValue m c' id callee args position railUse) w
  := by
  apply IsMirrored.succ fun _ => rfl
  have h := hs.forall_calls
  rw [Frame.callsOf] at h
  simp only [applyValue]
  split
  · next f hf =>
    rw [hf] at h
    have happly := List.forall_mem_singleton.mp h
    exact ih.applyCallable happly
  · split
    · exact IsMirrored.done fun _ _ => rfl
    · split
      · exact IsMirrored.done fun _ _ => rfl
      · exact IsMirrored.done fun _ hc' => by rw [hc'.source]

/-- The application of a function value in a safe frame is mirrored. -/
theorem applyCallable_mirrored (ih : Mirrored base called fuel) {id : NodeId} {f : Callable}
    {args : List Value} {position : PipePosition} {railUse : RailUse}
    (hs : Frame.IsSafe base called
      ⟨fuel + 1, .applyCallable c id f args position railUse, w⟩) :
  MirroredAt base called (fuel + 1) c
    (applyCallable (fuel + 1) c id f args position railUse)
    (fun m c' => applyCallable m c' id f args position railUse) w
  := by
  apply IsMirrored.succ fun _ => rfl
  have h := hs.forall_calls
  cases f with
  | named name =>
    simp only [applyCallable]
    have hcall := List.forall_mem_singleton.mp h
    exact ih.call hcall
  | lambda parameters captured body =>
    rw [Frame.callsOf] at h
    simp only [applyCallable]
    split
    · exact IsMirrored.done fun _ _ => rfl
    · next hnone =>
      rw [hnone] at h
      split
      · exact IsMirrored.done fun _ hc' => by rw [hc'.source]
      · next hcount =>
        dsimp only at h
        rw [if_neg hcount] at h
        have hbody := List.forall_mem_singleton.mp h
        exact ih.eval body hbody

/-- A call of a known function without arguments on the rail. -/
theorem call_of_known {name : FunctionName} {id : NodeId} {args : List Value}
    {position : PipePosition} {railUse : RailUse} {f : Function}
    (hrails : args.find? Value.isErrorRail = none)
    (hf : Assoc.get? name c.registry = some f) :
  call (fuel + 1) c name id args position railUse =
    (if f.parameters.length ≠ args.length then
      pure (Message.wrongCount (c.source id) name f.parameters.length args.length)
    else
      match args.find? fun value => value.isIncomplete || value.isFailure with
      | some value =>
        match position, value with
        | .inPipe _, .incomplete _ => pure (args.headD value)
        | _, _ => pure value
      | none => do
        let result ← carryOut fuel c f id args
        match railUse with
        | .rail => pure (toRail (c.source id) result)
        | .noRail => pure result)
  := by
  rewrite [call, hrails, hf]
  rfl

/-- A call by name in a safe frame is mirrored. -/
theorem call_mirrored (hsetting : IsSetting base called) (ih : Mirrored base called fuel)
    {name : FunctionName} {id : NodeId} {args : List Value} {position : PipePosition}
    {railUse : RailUse}
    (hs : Frame.IsSafe base called ⟨fuel + 1, .call c name id args position railUse, w⟩) :
  MirroredAt base called (fuel + 1) c (call (fuel + 1) c name id args position railUse)
    (fun m c' => call m c' name id args position railUse) w
  := by
  apply IsMirrored.succ fun _ => rfl
  have h := hs.forall_calls
  rw [Frame.callsOf] at h
  have hregistry : c.registry = base.registry := hs.isBasedOn.registry
  cases hrails : args.find? Value.isErrorRail with
  | some value =>
    simp only [call, hrails]
    exact IsMirrored.done fun _ _ => rfl
  | none =>
    rw [hrails] at h
    cases hf : Assoc.get? name c.registry with
    | none =>
      have hpreview : c.mode = .preview := by
        have hclean : (c.mode == .preview || (args.find? Value.isErrorRail).isSome
            || (Assoc.get? name c.registry).isSome) = true := hs.isClean
        rw [hrails, hf] at hclean
        simpa using hclean
      -- Only written functions have results, so that nothing is found for this name.
      have hunknown : ¬ base.registry.IsWritten name := by
        rintro ⟨f, hf', -⟩
        rw [← hregistry, hf] at hf'
        cases hf'
      have hlooks : ∀ m (c' : Context), c'.mode = .preview → c'.registry = c.registry →
          call (m + 1) c' name id args position railUse = (do
            let recorded ← Run.load c' (c'.site name id) args
            pure (recorded.getD (.incomplete (c'.source id)))) := by
        intro m c' hmode hregistry'
        rw [call, hrails, hregistry', hf, hmode]
        rfl
      have hmirror : ∀ m c', c'.Mirrors c →
          call (m + 1) c' name id args position railUse = (do
            let recorded ← Run.load c' (c.site name id) args
            pure (recorded.getD (.incomplete (c.source id)))) := by
        intro m c' hc'
        rw [hlooks m c' hc'.mode hc'.registry, hc'.site, hc'.source]
      refine IsMirrored.congr ?_ hmirror
      rw [hlooks fuel c hpreview rfl]
      apply IsMirrored.bind (IsMirrored.load (fun _ hS => hS.isOf) hunknown)
      intro recorded _ _
      exact IsMirrored.done fun _ _ => rfl
    | some f =>
      rw [hf] at h
      refine IsMirrored.congr ?_ fun m c' hc' =>
        call_of_known hrails ((congrArg _ hc'.registry).trans hf)
      rw [call_of_known hrails hf]
      split
      · exact IsMirrored.done fun _ hc' => by rw [hc'.source]
      · next hcount =>
        dsimp only at h
        rw [if_neg hcount] at h
        split
        · split
          · exact IsMirrored.done fun _ _ => rfl
          · exact IsMirrored.done fun _ _ => rfl
        · next hgood =>
          rw [hgood] at h
          have hcarry := List.forall_mem_singleton.mp h
          have hnamed : Assoc.get? f.name base.registry = some f := by
            rw [hregistry] at hf
            rw [hsetting.named name f hf]
            exact hf
          apply IsMirrored.bind (ih.carryOut hcarry hnamed)
          intro result _ _
          cases railUse with
          | rail => exact IsMirrored.done fun _ hc' => by rw [hc'.source]
          | noRail => exact IsMirrored.done fun _ _ => rfl

section Entered

variable {f : Function} {id : NodeId} {args : List Value} {origin : Origin}
  {toplevel : ToplevelId} {body : Expr}

/-- A written function that is not under way is not entered with arguments of other types. -/
theorem carryOut_of_mistyped (hbody : f.implementation = .written origin toplevel body)
    (hname : c.stack.outerCall? f.name = none) {error : TypeError} {errors : List TypeError}
    (htypes : Typing.checkCall c.types f.parameterTypes args = error :: errors) :
  carryOut (fuel + 1) c f id args = pure (Message.parameterTypes (c.source id) f.name
    (TypeError.messages (error :: errors)))
  := by
  rw [carryOut, hbody]
  dsimp only
  rw [if_neg (by simp [hname]), htypes]

/-- A function that is not under way, with arguments of the right types, is carried out by
its body. -/
theorem carryOut_of_typed (hbody : f.implementation = .written origin toplevel body)
    (hname : c.stack.outerCall? f.name = none)
    (htypes : Typing.checkCall c.types f.parameterTypes args = []) :
  carryOut (fuel + 1) c f id args = (do
    let result ← carryOutBody fuel (c.inCall f.name id) f toplevel body (c.site f.name id) args
    pure (checkedResult c.types (c.source id) f result))
  := by
  rw [carryOut, hbody]
  dsimp only
  rw [if_neg (by simp [hname]), htypes]

end Entered

/-- A function that is carried out in a safe frame is mirrored. -/
theorem carryOut_mirrored (ih : Mirrored base called fuel) {f : Function} {id : NodeId}
    {args : List Value} (hs : Frame.IsSafe base called ⟨fuel + 1, .carryOut c f id args, w⟩)
    (hf : Assoc.get? f.name base.registry = some f) :
  MirroredAt base called (fuel + 1) c (carryOut (fuel + 1) c f id args)
    (fun m c' => carryOut m c' f id args) w
  := by
  apply IsMirrored.succ fun _ => rfl
  have h := hs.forall_calls
  rw [Frame.callsOf] at h
  cases himplementation : f.implementation with
  | builtin b =>
    rw [himplementation] at h
    have hcarry := List.forall_mem_singleton.mp h
    have hmirror : ∀ m c', c'.Mirrors c → carryOut (m + 1) c' f id args = (do
        let result ← carryOutBuiltin m (c'.inCall f.name id) f b (c.site f.name id) args
        pure (checkedResult c.types (c.source id) f result)) := by
      intro m c' hc'
      rw [carryOut, himplementation, hc'.site, hc'.types, hc'.source]
    refine IsMirrored.congr ?_ hmirror
    rw [carryOut, himplementation]
    apply IsMirrored.bind (IsMirrored.inside (ih.carryOutBuiltin hcarry hf himplementation rfl)
      (fun _ hc' => hc'.inCall f.name id) fun _ hname => List.mem_cons_of_mem _ hname)
    intro result _ _
    exact IsMirrored.done fun _ _ => rfl
  | written origin toplevel body =>
    rw [himplementation] at h
    have hname : c.stack.outerCall? f.name = none := by
      have hclean : (f.isBuiltin || (c.stack.outerCall? f.name).isNone) = true := hs.isClean
      rw [Function.isBuiltin, himplementation] at hclean
      simpa using hclean
    have hname' : ∀ c' : Context, c'.Mirrors c → c'.stack.outerCall? f.name = none := by
      intro c' hc'
      rw [CallStack.outerCall?_eq_none] at hname ⊢
      exact fun hmem => hname (hc'.stack _ hmem)
    dsimp only at h
    rw [if_neg (by simp [hname])] at h
    cases htypes : Typing.checkCall c.types f.parameterTypes args with
    | cons error errors =>
      have hmirror : ∀ m c', c'.Mirrors c → carryOut (m + 1) c' f id args =
          pure (Message.parameterTypes (c.source id) f.name
            (TypeError.messages (error :: errors))) := by
        intro m c' hc'
        rw [carryOut_of_mistyped himplementation (hname' c' hc') (hc'.types ▸ htypes),
          hc'.source]
      refine IsMirrored.congr ?_ hmirror
      rw [carryOut_of_mistyped himplementation hname htypes]
      exact IsMirrored.done fun _ _ => rfl
    | nil =>
      rw [htypes] at h
      have hcarry := List.forall_mem_singleton.mp h
      have hmirror : ∀ m c', c'.Mirrors c → carryOut (m + 1) c' f id args = (do
          let result ← carryOutBody m (c'.inCall f.name id) f toplevel body
            (c.site f.name id) args
          pure (checkedResult c.types (c.source id) f result)) := by
        intro m c' hc'
        rw [carryOut_of_typed himplementation (hname' c' hc') (hc'.types ▸ htypes),
          hc'.site, hc'.types, hc'.source]
      refine IsMirrored.congr ?_ hmirror
      rw [carryOut_of_typed himplementation hname htypes]
      rw [CallStack.outerCall?_eq_none] at hname
      apply IsMirrored.bind (ih.carryOutBody hcarry hf himplementation hname)
      intro result _ _
      exact IsMirrored.done fun _ _ => rfl

/-- The result of a body is recalled, or the body is evaluated. -/
theorem carryOutBody_eq_recalled {f : Function} {toplevel : ToplevelId} {body : Expr}
    {site : CallSite} {args : List Value} :
  carryOutBody (fuel + 1) c f toplevel body site args = (do
    Run.enter c toplevel
    recalled c.mode.replaysResults c site args
      (eval fuel (c.inToplevel toplevel) (f.bodyScope args) body))
  := by
  rw [carryOutBody]
  rfl

/-- The body of a function is mirrored: by its recorded result, or by its evaluation. -/
theorem carryOutBody_mirrored (hsetting : IsSetting base called)
    (ih : Mirrored base called fuel) {id : NodeId}
    (hs : Frame.IsSafe base called ⟨fuel + 1,
      .carryOutBody (c.inCall f.name id) f toplevel body (c.site f.name id) args, w⟩)
    (hf : Assoc.get? f.name base.registry = some f)
    (hbody : f.implementation = .written origin toplevel body)
    (hname : f.name ∉ c.stack.names) :
  MirroredAt base called (fuel + 1) c
    (carryOutBody (fuel + 1) (c.inCall f.name id) f toplevel body (c.site f.name id) args)
    (fun m c' => carryOutBody m (c'.inCall f.name id) f toplevel body (c.site f.name id) args)
    w
  := by
  apply IsMirrored.succ fun _ => rfl
  have h := hs.forall_calls
  rw [Frame.callsOf] at h
  have hcalled : called (c.site f.name id) args := hs.isCalled rfl
  have hbase : base.IsBasedOn c := by
    obtain ⟨hversion, hregistry, htypes⟩ := hs.isBasedOn
    exact ⟨hversion, hregistry, htypes⟩
  have hmirror : ∀ m (c' : Context), c'.Mirrors c →
      carryOutBody (m + 1) (c'.inCall f.name id) f toplevel body (c.site f.name id) args = (do
        Run.enter (c'.inCall f.name id) toplevel
        recalled true (c'.inCall f.name id) (c.site f.name id) args
          (eval m ((c'.inCall f.name id).inToplevel toplevel) (f.bodyScope args) body)) := by
    intro m c' hc'
    rw [carryOutBody_eq_recalled, (hc'.inCall f.name id).mode]
    rfl
  refine IsMirrored.congr ?_ hmirror
  rw [carryOutBody_eq_recalled]
  apply IsMirrored.skip Run.enter_isSilent fun _ => Run.enter_isSilent
  intro _ w' hentered
  have h := forall_of_after h hentered
  have heval : ∀ w₁, Run.loadIf (c.inCall f.name id).mode.replaysResults
      (c.inCall f.name id) (c.site f.name id) args w' = (.done none, w₁) →
      MirroredAt base called fuel ((c.inCall f.name id).inToplevel toplevel)
        (eval fuel ((c.inCall f.name id).inToplevel toplevel) (f.bodyScope args) body)
        (fun m c' => eval m c' (f.bodyScope args) body) w₁ := by
    intro w₁ hload
    have hbody := List.forall_mem_singleton.mp (forall_of_after h hload)
    exact ih.eval body hbody
  cases hhash : base.argumentHash? args with
  | some hash => exact recalled_mirrored hsetting hbase hf hbody hname hcalled hhash heval
  | none =>
    -- Without a hash nothing is looked up, and all of them evaluate the body.
    have hinner : (c.inCall f.name id).argumentHash? args = none :=
      ((hbase.inCall f.name id).argumentHash? args).trans hhash
    have hunhashed : ∀ m (c' : Context), c'.Mirrors c → recalled true (c'.inCall f.name id)
        (c.site f.name id) args
        (eval m ((c'.inCall f.name id).inToplevel toplevel) (f.bodyScope args) body) = (do
          let value ←
            eval m ((c'.inCall f.name id).inToplevel toplevel) (f.bodyScope args) body
          pure value.offRail) := fun m c' hc' =>
      recalled_of_unhashed (((hc'.inCall f.name id).argumentHash? args).trans hinner)
    refine IsMirrored.congr ?_ hunhashed
    rw [recalled_of_unhashed hinner]
    have hload : Run.loadIf (c.inCall f.name id).mode.replaysResults
        (c.inCall f.name id) (c.site f.name id) args w' = (.done none, w') := by
      unfold Run.loadIf Run.load
      rw [hinner]
      split <;> rfl
    apply IsMirrored.bind (IsMirrored.inside (heval w' hload)
      (fun _ hc' => (hc'.inCall f.name id).inToplevel toplevel)
      fun _ hmem => List.mem_cons_of_mem _ hmem)
    intro value _ _
    exact IsMirrored.done fun _ _ => rfl

/-! ### Built-ins -/

/-- A built-in is mirrored: by its recorded result, or by carrying it out. -/
theorem carryOutBuiltin_mirrored (hsetting : IsSetting base called)
    (ih : Mirrored base called fuel) {b : Builtin}
    (hs : Frame.IsSafe base called ⟨fuel + 1, .carryOutBuiltin c f b site args, w⟩)
    (hf : Assoc.get? f.name base.registry = some f) (hb : f.implementation = .builtin b)
    (hsite : site.name = f.name) :
  MirroredAt base called (fuel + 1) c (carryOutBuiltin (fuel + 1) c f b site args)
    (fun m c' => carryOutBuiltin m c' f b site args) w
  := by
  apply IsMirrored.succ fun _ => rfl
  have h := hs.forall_calls
  rw [Frame.callsOf] at h
  have hunwritten : ¬ base.registry.IsWritten site.name := by
    rw [hsite]
    exact Registry.not_isWritten_of_builtin hf hb
  simp only [carryOutBuiltin]
  apply IsMirrored.bind (IsMirrored.loadIf (fun _ hS => hS.isOf) hunwritten)
  intro recorded w' hload
  have h := forall_of_after h hload
  cases recorded with
  | some result => exact IsMirrored.done fun _ _ => rfl
  | none =>
    dsimp only at h ⊢
    have hclean : f.previewability = .pure
        ∨ (f.previewability = .impure ∧ c.mode = .preview) := by
      have hclean : (f.previewability == .pure
          || (f.previewability == .impure && c.mode == .preview)) = true := hs.isClean
      simpa using hclean
    rcases hclean with hpure | ⟨himpure, hmode⟩
    · have hnotImpure (c' : Context) : ¬ (f.previewability = .impure
          ∧ ¬ c'.mode.allowsImpureCalls = true) := by
        rw [hpure]
        rintro ⟨⟨⟩, -⟩
      have hnotRepeatable : ¬ f.previewability = .repeatable := by
        rw [hpure]
        intro hrepeatable
        cases hrepeatable
      have hargs : Stdlib.comparesHiddenNaN f args = false := hs.comparesHiddenNaN
      obtain ⟨step, hstep⟩ : ∃ step, ∀ known, b.run known args = step :=
        ⟨b.run ⟨w'.now, .nothing, 0⟩ args, fun known =>
          hsetting.pure _ f b hf hb hpure args hargs known _⟩
      rw [if_neg (hnotImpure c)] at h
      simp only [if_neg (hnotImpure _), if_neg hnotRepeatable, hstep] at h ⊢
      apply IsMirrored.skip Run.invoke_isSilent fun _ => Run.invoke_isSilent
      intro known w'' hinvoke
      have hsteps := List.forall_mem_singleton.mp (forall_of_after h hinvoke)
      apply IsMirrored.bind (ih.runSteps step hsteps)
      intro outcome _ _
      exact IsMirrored.done fun _ hc' => by rw [hc'.source]
    · -- An impure built-in is only met in preview, where it is not carried out.
      have hstopped : ∀ c' : Context, c'.mode = .preview → (f.previewability = .impure
          ∧ ¬ c'.mode.allowsImpureCalls = true) := by
        intro c' hmode'
        rw [hmode']
        exact ⟨himpure, Bool.false_ne_true⟩
      rw [if_pos (hstopped c hmode)]
      apply IsMirrored.congr
        (IsMirrored.done fun c' hc' => congrArg Value.incomplete (hc'.source site.caller))
      intro m c' hc'
      exact if_pos (hstopped c' hc'.mode)

/-- The steps of a built-in are mirrored. -/
theorem runSteps_mirrored (ih : Mirrored base called fuel) {caller : NodeId}
    (step : BuiltinStep)
    (hs : Frame.IsSafe base called ⟨fuel + 1, .runSteps c caller step, w⟩) :
  MirroredAt base called (fuel + 1) c (Run.caught (runSteps (fuel + 1) c caller step))
    (fun m c' => Run.caught (runSteps m c' caller step)) w
  := by
  apply IsMirrored.succ fun _ => rfl
  have h := hs.forall_calls
  cases step with
  | finish result =>
    simp only [runSteps]
    exact IsMirrored.caught (IsMirrored.done fun _ _ => rfl)
  | fail reason =>
    simp only [runSteps]
    have hfault : Run.caught (Run.fault reason : Run (Except BuiltinError Value))
        = pure (.error reason) := rfl
    rw [hfault]
    exact IsMirrored.done fun _ _ => rfl
  | apply f args position railUse next =>
    simp only [runSteps, Run.caught_bind]
    obtain ⟨happly, hafter⟩ := List.forall_mem_cons.mp h
    apply IsMirrored.bind (IsMirrored.caught (ih.applyCallable happly))
    intro result w' hrun
    cases result with
    | ok value =>
      have hsteps := List.forall_mem_singleton.mp (forall_of_after hafter (Run.of_caught hrun))
      exact ih.runSteps _ hsteps
    | error reason => exact IsMirrored.done fun _ _ => rfl

/-! ### Evaluation as a whole -/

/-- Previews mirror evaluation from safe frames, by induction on the fuel of the run. -/
theorem mirrored (hsetting : IsSetting base called) :
  ∀ fuel, Mirrored base called fuel
  | 0 => by
    constructor <;> intros <;> exact IsMirrored.outOfFuel
  | fuel + 1 => by
    have ih := mirrored hsetting fuel
    exact {
      eval := eval_mirrored ih
      lookAt := lookAt_mirrored ih
      evalNode := evalNode_mirrored ih
      evalArgs := evalArgs_mirrored ih
      evalItems := evalItems_mirrored ih
      evalFields := evalFields_mirrored ih
      evalCases := evalCases_mirrored ih
      applyValue := applyValue_mirrored ih
      applyCallable := applyCallable_mirrored ih
      call := call_mirrored hsetting ih
      carryOut := carryOut_mirrored ih
      carryOutBody := carryOutBody_mirrored hsetting ih
      carryOutBuiltin := carryOutBuiltin_mirrored hsetting ih
      runSteps := runSteps_mirrored ih }

/-! ### Programs -/

/-- The calls of written functions that a frame reaches. -/
def Frame.Calls (s : Frame) (site : CallSite) (args : List Value) : Prop :=
  ∃ t, s.Reaches t ∧ t.bodyCall? = some (site, args)

/-- A clean run that compares no hidden NaN is safe, with its own calls. -/
theorem Frame.isSafe_calls {s : Frame} (hs : base.IsBasedOn s.context)
    (hclean : ∀ t, s.Reaches t → t.isClean = true)
    (hsettled : ∀ t, s.Reaches t → t.comparesHiddenNaN = false) :
  s.IsSafe base s.Calls
  := by
  intro t ht
  refine ⟨?_, hclean t ht, hsettled t ht, fun site args hcall => ⟨t, ht, hcall⟩⟩
  apply ht.handsDown _ hs
  intro c c' hdescends hc
  cases hdescends <;> exact ⟨hc.hashVersion, hc.registry, hc.types⟩

/-- The empty table is sound. -/
theorem isSound_empty :
  IsSound base called (fun _ _ => none)
  where
  settles _ _ _ h := by cases h
  isHeld := ⟨.fresh ⟨0, 0⟩, fun _ => rfl, rfl, fun _ _ => rfl⟩

end Interpreter

namespace Execution

open Interpreter

/-- A run that ends with a value is not guarded against anything. -/
theorem guarded_of_done {source : Source} {run : Run Value} {value : Value} {w w' : World}
    (h : run w = (.done value, w')) :
  guarded source run w = (.done value, w')
  := by
  rw [guarded, Run.bind_of_done (Run.caught_of_done h)]
  rfl

/-- The end of a recording always gives what was recorded. -/
theorem stopRecording_eq (w : World) :
  ∃ live w', stopRecording w = (.done live, w')
  := by
  rw [stopRecording]
  split
  · exact ⟨_, _, rfl⟩
  · exact ⟨_, _, rfl⟩

/-- The preview of a program with functions written in the language. -/
theorem isSetting_start {fs : List Function} (hfs : ∀ f ∈ fs, f.isBuiltin = false)
    {version : UInt32} {toplevel : ToplevelId} {types : TypeTable} {sharing : Mode → Nat → Sharing}
    {base : Context} (hbase : base = { Context.start .preview version toplevel
      (Stdlib.registry.addAll fs) types with sharing })
    {called : CallSite → List Value → Prop}
    (hdistinct : ∀ site args args' hash, called site args → called site args' →
      base.argumentHash? args = some hash → base.argumentHash? args' = some hash →
      args = args') :
  IsSetting base called
  := by
  subst hbase
  exact {
    mode := rfl
    stack := rfl
    distinct := hdistinct
    named := fun _ _ hf => Registry.name_of_get?_addAll Stdlib.name_of_get? hf
    pure := fun _ _ _ hf hb hpure _ hargs =>
      Stdlib.run_eq_of_pure (Stdlib.mem_contents_of_builtin hfs hf hb) hpure hb hargs }

/-- An analysis has the value of the preview. -/
theorem analyse_of_done {c : Context} {scope : Scope} {e : Expr} {w w' : World}
    {value : Value}
    (h : eval fuel { c with mode := .preview } scope e
      { w with store := .recording [] w.store } = (.done value, w')) :
  ∃ live w'', analyse c scope e w = (.done ⟨value, live⟩, w'')
  := by
  obtain ⟨live, w'', hstop⟩ := stopRecording_eq w'
  refine ⟨live, w'', ?_⟩
  have hexecute : execute { c with mode := .preview } scope e
      { w with store := .recording [] w.store } = (.done value, w') := guarded_of_done h
  rw [analyse, Run.bind_of_done (rfl : startRecording w = _), Run.bind_of_done hexecute,
    Run.bind_of_done hstop]
  rfl

/-- A pure program has the same value in preview, from an empty store, as for real, whatever
maps have in common then, unless calls of one function from one node have different
arguments with the same hash, or values are compared that both hide NaN. -/
theorem analyse_eq_execute {fs : List Function} (hfs : ∀ f ∈ fs, f.isBuiltin = false)
    {version : UInt32} {toplevel : ToplevelId} {types : TypeTable} {sharing : Mode → Nat → Sharing}
    {c : Context} (hc : c = { Context.start .real version toplevel
      (Stdlib.registry.addAll fs) types with sharing })
    {scope : Scope} {e : Expr} {w : World} (hstore : w.store.IsReliable)
    (hempty : ∀ site hash, w.store.load? site hash = none)
    (hclean : ∀ t, Frame.Reaches ⟨fuel, .eval c scope e, w⟩ t → t.isClean = true)
    (hsettled : ∀ t, Frame.Reaches ⟨fuel, .eval c scope e, w⟩ t →
      t.comparesHiddenNaN = false)
    (hdistinct : ∀ site args args' hash, Frame.Calls ⟨fuel, .eval c scope e, w⟩ site args →
      Frame.Calls ⟨fuel, .eval c scope e, w⟩ site args' →
      c.argumentHash? args = some hash → c.argumentHash? args' = some hash → args = args')
    {value : Value} {w' : World} (hrun : execute c scope e w = (.done value, w'))
    {w₂ : World} (hw₂ : w₂.store = .memory .empty) (sharing₂ : Mode → Nat → Sharing) :
  ∃ live w₂', analyse { c with sharing := sharing₂ } scope e w₂ = (.done ⟨value, live⟩, w₂')
  := by
  let s : Frame := ⟨fuel, .eval c scope e, w⟩
  let base : Context := { c with mode := .preview }
  have hsetting : IsSetting base s.Calls :=
    isSetting_start hfs (congrArg (fun c => { c with mode := .preview }) hc) hdistinct
  have hsafe : s.IsSafe base s.Calls := Frame.isSafe_calls ⟨rfl, rfl, rfl⟩ hclean hsettled
  have hwithin : w.store.IsWithin fun _ _ => none := by
    refine ⟨hstore, ?_⟩
    intro site hash value hvalue
    rw [hempty] at hvalue
    cases hvalue
  have hmirrored := (mirrored hsetting fuel).eval e hsafe
  rcases hmirrored _ isSound_empty hwithin with
    hfuel | ⟨value', w'', S', heval, -, -, hends⟩
  · have hexecute : (execute c scope e w).1 = .outOfFuel :=
      Run.bind_of_outOfFuel (Run.caught_of_outOfFuel hfuel)
    rw [hrun] at hexecute
    cases hexecute
  · rw [execute, guarded_of_done heval] at hrun
    obtain ⟨hvalue, -⟩ := Prod.mk.inj hrun
    obtain rfl := Outcome.done.inj hvalue
    have hmirrors : ({ base with sharing := sharing₂ } : Context).Mirrors c :=
      ⟨rfl, rfl, rfl, rfl, rfl, fun _ hname => hname⟩
    have hholds : ({ w₂ with store := .recording [] w₂.store } : World).store.Holds
        fun _ _ => none := by
      rw [hw₂]
      exact ⟨fun _ => rfl, rfl, fun _ _ => rfl⟩
    rcases hends fuel _ _ _ _ hmirrors .along hholds with
      ⟨hshort, -⟩ | ⟨w₃, heval', -⟩
    · exact absurd hshort (Nat.lt_irrefl fuel)
    · exact analyse_of_done heval'

/-! ### Two programs -/

/-- Whether values are some numbers. -/
def areNumbers : List Int → List Value → Bool
  | [], [] => true
  | n :: ns, .int m :: items => m == n && areNumbers ns items
  | _, _ => false

theorem eq_of_areNumbers {ns : List Int} {items : List Value}
    (h : areNumbers ns items = true) :
  items = ns.map .int
  := by
  fun_induction areNumbers ns items with
  | case1 => rfl
  | case2 n ns m items ih =>
    obtain ⟨hm, hitems⟩ := (Bool.and_eq_true _ _).mp h
    rw [ih hitems, beq_iff_eq.mp hm]
    rfl
  | case3 => cases h

/-- Whether a value is a list of some numbers. -/
def isNumbers (ns : List Int) : Value → Bool
  | .list items => areNumbers ns items
  | _ => false

theorem eq_of_isNumbers {ns : List Int} {value : Value} (h : isNumbers ns value = true) :
  value = .list (ns.map .int)
  := by
  cases value with
  | list items => rw [eq_of_areNumbers h]
  | _ => cases h

/-- The start of a program with one further function. -/
def startWith (f : Function) : Context :=
  .start .real 1 0 (Stdlib.registry.addAll [f]) []

/-- A function that doubles a number, or would show it. -/
def double : Function where
  name := .user "double"
  parameters := [⟨"n", .int, ""⟩]
  returnType := .int
  description := "Doubles a number"
  previewability := .pure
  deprecation := .current
  implementation := .written .user 20
    (.conditional 21 (.bool 22 true)
      (.apply 23 (.functionValue 24 (.stdlib "Int" "add" 0))
        [.variable 25 "n", .variable 26 "n"] .notInPipe .noRail)
      (.variable 27 "n"))

/-- Doubles some numbers, one of them twice. -/
def doubling : Expr :=
  .apply 1 (.functionValue 2 (.stdlib "List" "map" 0))
    [.list 3 [.integer 4 1, .integer 5 2, .integer 6 1],
      .lambda 7 [(8, "n")]
        (.apply 9 (.functionValue 10 double.name) [.variable 11 "n"] .notInPipe .noRail)]
    .notInPipe .noRail

/-- Whether a frame is clean, compares nothing that hides NaN, and is no call of a written
function but with 1 or 2. -/
def isDoubling (s : Frame) : Bool :=
  s.isClean && !s.comparesHiddenNaN && match s.bodyCall? with
    | none | some (_, [.int 1]) | some (_, [.int 2]) => true
    | some _ => false

/-- The preview takes up the result of the first call for the third. -/
theorem analyse_eq_execute_doubling :
  ∃ live w', analyse (startWith double) [] doubling (.fresh ⟨0, 0⟩)
    = (.done ⟨.list [.int 2, .int 4, .int 2], live⟩, w')
  := by
  let c := startWith double
  let s : Frame := ⟨fuel, .eval c [] doubling, .fresh ⟨0, 0⟩⟩
  have hpasses : s.passes isDoubling 40 = true := by decide +kernel
  have hpassed (t : Frame) (ht : s.Reaches t) := (Bool.and_eq_true _ _).mp
    (Frame.of_passes hpasses ht)
  have hclean : ∀ t, s.Reaches t → t.isClean = true := fun t ht =>
    ((Bool.and_eq_true _ _).mp (hpassed t ht).1).1
  have hsettled : ∀ t, s.Reaches t → t.comparesHiddenNaN = false := fun t ht =>
    Bool.not_eq_true' _ ▸ ((Bool.and_eq_true _ _).mp (hpassed t ht).1).2
  have hargs : ∀ site args, s.Calls site args → args = [.int 1] ∨ args = [.int 2] := by
    rintro site args ⟨t, ht, hcall⟩
    have htest := (hpassed t ht).2
    rw [hcall] at htest
    split at htest
    · next h => cases h
    · next h => cases h; exact .inl rfl
    · next h => cases h; exact .inr rfl
    · cases htest
  have hhash : c.argumentHash? [.int 1] ≠ c.argumentHash? [.int 2] := by decide +kernel
  have hdistinct : ∀ site args args' hash, s.Calls site args → s.Calls site args' →
      c.argumentHash? args = some hash → c.argumentHash? args' = some hash → args = args' := by
    intro site args args' hash hcall hcall' h h'
    rcases hargs site args hcall with rfl | rfl
    · rcases hargs site args' hcall' with rfl | rfl
      · rfl
      · exact absurd (h.trans h'.symm) hhash
    · rcases hargs site args' hcall' with rfl | rfl
      · exact absurd (h'.trans h.symm) hhash
      · rfl
  have hnumbers : Outcome.passes (isNumbers [2, 4, 2])
      (execute c [] doubling (.fresh ⟨0, 0⟩)) = true := by decide +kernel
  obtain ⟨value, w', hrun, hvalue⟩ := Outcome.of_passes hnumbers
  obtain rfl := eq_of_isNumbers hvalue
  have hc : c = { Context.start .real 1 0 (Stdlib.registry.addAll [double]) [] with
      sharing := fun _ _ => .nothing } := rfl
  exact analyse_eq_execute (List.forall_mem_singleton.mpr rfl) hc (fun _ => rfl)
    (fun _ _ => rfl) hclean hsettled hdistinct hrun rfl fun _ _ => .nothing

/-- A function that applies the function that it is given. -/
def callWith : Function where
  name := .user "callWith"
  parameters := [⟨"f", .function [.any] .any, ""⟩]
  returnType := .any
  description := "Applies a function"
  previewability := .pure
  deprecation := .current
  implementation := .written .user 20
    (.apply 21 (.variable 22 "f") [.null 23] .notInPipe .noRail)

/-- Applies, for each of two numbers, a function that always gives that number. -/
def capturing : Expr :=
  .apply 1 (.functionValue 2 (.stdlib "List" "map" 0))
    [.list 3 [.integer 4 1, .integer 5 2],
      .lambda 6 [(7, "x")]
        (.apply 8 (.functionValue 9 callWith.name)
          [.lambda 10 [(11, "y")] (.variable 12 "x")] .notInPipe .noRail)]
    .notInPipe .noRail

/-- A function that gives a new record with what the one that it is given has in it. -/
def renew : Function where
  name := .user "renew"
  parameters := [⟨"q", .any, ""⟩]
  returnType := .any
  description := ""
  previewability := .pure
  deprecation := .current
  implementation := .written .user 20
    (.record 21 [("y", .fieldAccess 22 (.variable 23 "q") "x")])

/-- Renews a record twice at one place, and compares the two. -/
def renewing : Expr :=
  .letIn 1 "h"
    (.lambda 2 [(3, "y")]
      (.apply 4 (.functionValue 5 renew.name) [.variable 6 "r"] .notInPipe .noRail))
    (.apply 7 (.functionValue 8 (.stdlib "" "==" 0))
      [.apply 9 (.variable 10 "h") [.integer 11 1] .notInPipe .noRail,
        .apply 12 (.variable 13 "h") [.integer 14 2] .notInPipe .noRail]
      .notInPipe .noRail)

/-- A record with NaN. -/
def holdingNaN : Scope :=
  [("r", .record [("x", .float .nan)])]

/-- For real the two records are different maps, so that NaN tells them apart; in preview
the second one is what was recorded of the first. -/
theorem analyse_ne_execute_renewing :
  (∀ t, Frame.Reaches ⟨fuel, .eval (startWith renew) holdingNaN renewing, .fresh ⟨0, 0⟩⟩ t →
      t.isClean = true)
    ∧ (∃ w, execute (startWith renew) holdingNaN renewing (.fresh ⟨0, 0⟩)
      = (.done (.bool false), w))
    ∧ ∃ live w, analyse { startWith renew with sharing := fun _ _ => .ofFloats } holdingNaN
        renewing (.fresh ⟨0, 0⟩)
      = (.done ⟨.bool true, live⟩, w)
  := by
  refine ⟨?_, ?_, ?_⟩
  · have hpasses : Frame.passes Frame.isClean 40
        ⟨fuel, .eval (startWith renew) holdingNaN renewing, .fresh ⟨0, 0⟩⟩ = true := by
      decide +kernel
    exact fun t ht => Frame.of_passes hpasses ht
  · have hfalse : Outcome.passes (Value.same · (.bool false))
        (execute (startWith renew) holdingNaN renewing (.fresh ⟨0, 0⟩)) = true := by
      decide +kernel
    obtain ⟨value, w, hrun, hvalue⟩ := Outcome.of_passes hfalse
    obtain rfl := Value.same_bool_iff.mp hvalue
    exact ⟨w, hrun⟩
  · have htrue : Outcome.passes (fun analysis => analysis.result.same (.bool true))
        (analyse { startWith renew with sharing := fun _ _ => .ofFloats } holdingNaN
          renewing (.fresh ⟨0, 0⟩)) = true := by
      decide +kernel
    obtain ⟨⟨value, live⟩, w, hrun, hvalue⟩ := Outcome.of_passes htrue
    obtain rfl := Value.same_bool_iff.mp hvalue
    exact ⟨live, w, hrun⟩

/-- All function values have the same hash: a preview takes a call with one for a call with
the other. And records with NaN are different maps for real, but in preview the second one
is what was recorded of the first. -/
theorem analyse_ne_execute :
  ((∀ t, Frame.Reaches ⟨fuel, .eval (startWith callWith) [] capturing, .fresh ⟨0, 0⟩⟩ t →
        t.isClean = true)
      ∧ (∃ w, execute (startWith callWith) [] capturing (.fresh ⟨0, 0⟩)
        = (.done (.list [.int 1, .int 2]), w))
      ∧ ∃ live w, analyse (startWith callWith) [] capturing (.fresh ⟨0, 0⟩)
        = (.done ⟨.list [.int 1, .int 1], live⟩, w))
    ∧ (∀ t, Frame.Reaches ⟨fuel, .eval (startWith renew) holdingNaN renewing,
          .fresh ⟨0, 0⟩⟩ t → t.isClean = true)
      ∧ (∃ w, execute (startWith renew) holdingNaN renewing (.fresh ⟨0, 0⟩)
        = (.done (.bool false), w))
      ∧ ∃ live w, analyse { startWith renew with sharing := fun _ _ => .ofFloats } holdingNaN
          renewing (.fresh ⟨0, 0⟩)
        = (.done ⟨.bool true, live⟩, w)
  := by
  refine ⟨⟨?_, ?_, ?_⟩, analyse_ne_execute_renewing⟩
  · have hpasses : Frame.passes Frame.isClean 40 ⟨fuel, .eval (startWith callWith) [] capturing,
        .fresh ⟨0, 0⟩⟩        = true := by decide +kernel
    exact fun t ht => Frame.of_passes hpasses ht
  · have hnumbers : Outcome.passes (isNumbers [1, 2])
        (execute (startWith callWith) [] capturing (.fresh ⟨0, 0⟩)) = true := by
      decide +kernel
    obtain ⟨value, w, hrun, hvalue⟩ := Outcome.of_passes hnumbers
    obtain rfl := eq_of_isNumbers hvalue
    exact ⟨w, hrun⟩
  · have hnumbers : Outcome.passes (fun analysis => isNumbers [1, 1] analysis.result)
        (analyse (startWith callWith) [] capturing (.fresh ⟨0, 0⟩)) = true := by
      decide +kernel
    obtain ⟨⟨value, live⟩, w, hrun, hvalue⟩ := Outcome.of_passes hnumbers
    obtain rfl := eq_of_isNumbers hvalue
    exact ⟨live, w, hrun⟩

end Execution

end LiveExpr
