import LiveExpr.Proofs.FirstOrder
import LiveExpr.Proofs.Fuel
import LiveExpr.Proofs.Lockstep
import LiveExpr.Proofs.Occurrences

/-!
# Lexical scoping

Evaluation for real only depends on the free variables of an expression without lambdas.
The previews of cases that fail look their variables up in the scope around the match,
whatever it holds, but nothing of what they find gets back. Main statement:
`evaluates_congr`.
-/

namespace LiveExpr

/-! ### Scopes with the same variables -/

/-- What is bound in both scopes hides what was bound before. -/
theorem Fields.get?_extend_congr {α : Type} {fields fields' : Fields α}
    {pairs : List (String × α)} {name : String}
    (h : name ∉ pairs.map Prod.fst → fields.get? name = fields'.get? name) :
  (fields.extend pairs).get? name = (fields'.extend pairs).get? name
  := by
  induction pairs generalizing fields fields' with
  | nil => exact h List.not_mem_nil
  | cons pair rest ih =>
    change ((fields.insert pair.1 pair.2).extend rest).get? name
      = ((fields'.insert pair.1 pair.2).extend rest).get? name
    apply ih
    intro hrest
    rw [get?_insert, get?_insert]
    split
    · rfl
    · next hne =>
      apply h
      rw [List.map_cons, List.mem_cons, not_or]
      exact ⟨Ne.symm hne, hrest⟩

namespace Expr

/-- Whether an expression sees the same in two scopes, some names apart that are still to be
bound: no lambda captures the scopes and the free variables are bound alike, or the scopes
are the same altogether. -/
def SeesSame (names : List String) (e : Expr) (scope scope' : Scope) : Prop :=
  scope = scope' ∨ e.IsFirstOrder ∧ ∀ name i, name ∉ names → e.OccursFree name i →
    Fields.get? name scope = Fields.get? name scope'

variable {e inner : Expr} {names : List String} {scope scope' : Scope}

theorem SeesSame.refl :
  e.SeesSame names scope scope
  := .inl rfl

/-- A part sees the same where the whole does, but for the names bound over it. -/
theorem SeesSame.part (h : e.SeesSame [] scope scope')
    (hpart : (names, inner) ∈ e.scopedParts) :
  inner.SeesSame names scope scope'
  := by
  rcases h with rfl | ⟨hfirst, hagree⟩
  · exact .refl
  · right
    constructor
    · apply hfirst.child
      rw [← scopedParts_snd]
      exact List.mem_map_of_mem hpart
    · intro name i hname hoccurs
      exact hagree name i List.not_mem_nil (.part hpart hname hoccurs)

/-- A part over which nothing is bound. -/
theorem SeesSame.child (h : e.SeesSame [] scope scope')
    (he : e.scopedParts = e.children.map ([], ·)) (hinner : inner ∈ e.children) :
  inner.SeesSame [] scope scope'
  := h.part (Interpreter.Frame.mem_scopedParts_plain he hinner)

/-- Once the names are bound, the same is seen. -/
theorem SeesSame.extend (h : e.SeesSame names scope scope') {pairs : List (String × Value)}
    (hnames : ∀ name ∈ names, name ∈ pairs.map Prod.fst) :
  e.SeesSame [] (Fields.extend scope pairs) (Fields.extend scope' pairs)
  := by
  rcases h with rfl | ⟨hfirst, hagree⟩
  · exact .refl
  · right
    use hfirst
    intro name i _ hoccurs
    apply Fields.get?_extend_congr
    intro hname
    exact hagree name i (mt (hnames name) hname) hoccurs

/-- A variable means the same in scopes in which it sees the same. -/
theorem SeesSame.get? {i : NodeId} {name : String}
    (h : (Expr.variable i name).SeesSame [] scope scope') :
  Fields.get? name scope = Fields.get? name scope'
  := by
  rcases h with rfl | ⟨-, hagree⟩
  · rfl
  · exact hagree name i List.not_mem_nil .here

/-- A lambda sees the same in one scope only, which it captures. -/
theorem SeesSame.of_lambda {id : NodeId} {parameters : List (NodeId × String)} {body : Expr}
    (h : (Expr.lambda id parameters body).SeesSame [] scope scope') :
  scope = scope'
  := by
  rcases h with rfl | ⟨hfirst, -⟩
  · rfl
  · cases hfirst.self

end Expr

/-- Whether code runs for real, among the functions of a registry. -/
def Context.IsRealIn (registry : Registry) (c : Context) : Prop :=
  c.mode = .real ∧ c.registry = registry

namespace Interpreter

open Run (InStep)

/-- What evaluation with some fuel in one scope has to do with evaluation in another in
which the code sees the same. -/
structure ScopedAt (registry : Registry) (fuel : Nat) : Prop where
  eval : ∀ {c scope scope'} e, c.IsRealIn registry → e.SeesSame [] scope scope' →
    InStep (World.Alike registry) (eval fuel c scope e) (eval fuel c scope' e)
  evalNode : ∀ {c scope scope'} e, c.IsRealIn registry → e.SeesSame [] scope scope' →
    InStep (World.Alike registry) (evalNode fuel c scope e) (evalNode fuel c scope' e)
  evalArgs : ∀ {c scope scope'} es, c.IsRealIn registry →
    (∀ e ∈ es, e.SeesSame [] scope scope') →
    InStep (World.Alike registry) (evalArgs fuel c scope es) (evalArgs fuel c scope' es)
  evalItems : ∀ {c scope scope'} es, c.IsRealIn registry →
    (∀ e ∈ es, e.SeesSame [] scope scope') →
    InStep (World.Alike registry) (evalItems fuel c scope es) (evalItems fuel c scope' es)
  evalFields : ∀ {c scope scope'} fields, c.IsRealIn registry →
    (∀ field ∈ fields, field.2.SeesSame [] scope scope') →
    InStep (World.Alike registry) (evalFields fuel c scope fields)
      (evalFields fuel c scope' fields)
  evalCases : ∀ {c scope scope' value} cases, c.IsRealIn registry →
    (∀ case ∈ cases, case.2.SeesSame case.1.boundNames scope scope') →
    InStep (World.Alike registry) (evalCases fuel c scope value cases none)
      (evalCases fuel c scope' value cases none)
  applyValue : ∀ {c id callee args position railUse}, c.IsRealIn registry →
    InStep (World.Alike registry) (applyValue fuel c id callee args position railUse)
      (applyValue fuel c id callee args position railUse)
  applyCallable : ∀ {c id f args position railUse}, c.IsRealIn registry →
    InStep (World.Alike registry) (applyCallable fuel c id f args position railUse)
      (applyCallable fuel c id f args position railUse)
  call : ∀ {c name id args position railUse}, c.IsRealIn registry →
    InStep (World.Alike registry) (call fuel c name id args position railUse)
      (call fuel c name id args position railUse)
  carryOut : ∀ {c f id args}, c.IsRealIn registry → Assoc.get? f.name registry = some f →
    InStep (World.Alike registry) (carryOut fuel c f id args) (carryOut fuel c f id args)
  carryOutBody : ∀ {c f toplevel body site args}, c.IsRealIn registry →
    InStep (World.Alike registry) (carryOutBody fuel c f toplevel body site args)
      (carryOutBody fuel c f toplevel body site args)
  carryOutBuiltin : ∀ {c f b site args}, c.IsRealIn registry →
    Assoc.get? f.name registry = some f → f.implementation = .builtin b →
    InStep (World.Alike registry) (carryOutBuiltin fuel c f b site args)
      (carryOutBuiltin fuel c f b site args)
  runSteps : ∀ {c caller} step, c.IsRealIn registry →
    InStep (World.Alike registry) (runSteps fuel c caller step) (runSteps fuel c caller step)

variable {registry : Registry} {fuel : Nat} {c : Context} {scope scope' : Scope}

/-! ### Code that is not taken -/

section

variable (hregistry : registry.IsRepeatable) (hc : c.IsRealIn registry)
include hregistry hc

/-- What is looked at on either side may differ. -/
theorem lookAt_inStep {β : Type} {e e' : Expr} {next next' : Run β}
    (hnext : InStep (World.Alike registry) next next') :
  InStep (World.Alike registry) (lookAt fuel c scope e >>= fun _ => next)
    (lookAt fuel c scope' e' >>= fun _ => next')
  := by
  obtain ⟨-, rfl⟩ := hc
  apply InStep.skip (lookAt_keepsAlike hregistry fuel) (lookAt_keepsAlike hregistry fuel)
  intro _ _ _ _
  exact hnext

/-- The cases after the one that is taken leave its value alone in either scope. -/
theorem evalCases_chosen_inStep {value result : Value} {cases : List (Pattern × Expr)} :
  InStep (World.Alike registry) (evalCases fuel c scope value cases (some result))
    (evalCases fuel c scope' value cases (some result))
  := by
  obtain ⟨-, rfl⟩ := hc
  apply InStep.ofKeepsAlike
  · exact evalCases_keepsAlike hregistry fuel cases
  · exact evalCases_keepsAlike hregistry fuel cases

end

theorem reportPattern_inStep {β : Type} {executed : Bool} {reports : List (NodeId × Value)}
    {next next' : Run β} (hnext : InStep (World.Alike registry) next next') :
  InStep (World.Alike registry) (reportPattern c executed reports >>= fun _ => next)
    (reportPattern c executed reports >>= fun _ => next')
  := by
  apply InStep.skip reportPattern_keepsAlike reportPattern_keepsAlike
  intro _ _ _ _
  exact hnext

/-! ### Expressions -/

/-- The evaluation of an expression is in step if that of the node is. -/
theorem eval_inStep (ih : ScopedAt registry fuel) (e : Expr) (hc : c.IsRealIn registry)
    (hsame : e.SeesSame [] scope scope') :
  InStep (World.Alike registry) (eval (fuel + 1) c scope e) (eval (fuel + 1) c scope' e)
  := by
  rw [eval, eval]
  apply InStep.bind (ih.evalNode e hc hsame)
  intro value
  apply InStep.skip Run.report_keepsAlike Run.report_keepsAlike
  intro _ _ _ _
  exact .done

/-- Arguments are in step, one after another. -/
theorem evalArgs_inStep (ih : ScopedAt registry fuel) (es : List Expr)
    (hc : c.IsRealIn registry) (hsame : ∀ e ∈ es, e.SeesSame [] scope scope') :
  InStep (World.Alike registry) (evalArgs (fuel + 1) c scope es)
    (evalArgs (fuel + 1) c scope' es)
  := by
  cases es with
  | nil => exact .done
  | cons e rest =>
    obtain ⟨he, hrest⟩ := List.forall_mem_cons.mp hsame
    rw [evalArgs, evalArgs]
    apply InStep.bind (ih.eval e hc he)
    intro value
    apply InStep.bind (ih.evalArgs rest hc hrest)
    intro values
    exact .done

/-- Items are in step, up to the first on the error rail. -/
theorem evalItems_inStep (ih : ScopedAt registry fuel) (es : List Expr)
    (hc : c.IsRealIn registry) (hsame : ∀ e ∈ es, e.SeesSame [] scope scope') :
  InStep (World.Alike registry) (evalItems (fuel + 1) c scope es)
    (evalItems (fuel + 1) c scope' es)
  := by
  cases es with
  | nil => exact .done
  | cons e rest =>
    obtain ⟨he, hrest⟩ := List.forall_mem_cons.mp hsame
    rw [evalItems, evalItems]
    apply InStep.bind (ih.eval e hc he)
    intro value
    split
    · exact .done
    · apply InStep.bind (ih.evalItems rest hc hrest)
      rintro (rail | values)
      · exact .done
      · exact .done

/-- Fields are in step, one after another. -/
theorem evalFields_inStep (ih : ScopedAt registry fuel) (fields : List (String × Expr))
    (hc : c.IsRealIn registry) (hsame : ∀ field ∈ fields, field.2.SeesSame [] scope scope') :
  InStep (World.Alike registry) (evalFields (fuel + 1) c scope fields)
    (evalFields (fuel + 1) c scope' fields)
  := by
  cases fields with
  | nil => exact .done
  | cons field rest =>
    obtain ⟨name, e⟩ := field
    obtain ⟨he, hrest⟩ := List.forall_mem_cons.mp hsame
    rw [evalFields, evalFields]
    split
    · exact ih.evalFields rest hc hrest
    · apply InStep.bind (ih.eval e hc he)
      intro value
      apply InStep.bind (ih.evalFields rest hc hrest)
      intro pairs
      exact .done

/-- A case that matches binds its variables; one that does not is looked at only. -/
theorem evalCases_inStep (hregistry : registry.IsRepeatable) (ih : ScopedAt registry fuel)
    {value : Value} (cases : List (Pattern × Expr)) (hc : c.IsRealIn registry)
    (hsame : ∀ case ∈ cases, case.2.SeesSame case.1.boundNames scope scope') :
  InStep (World.Alike registry) (evalCases (fuel + 1) c scope value cases none)
    (evalCases (fuel + 1) c scope' value cases none)
  := by
  cases cases with
  | nil => exact .done
  | cons case rest =>
    obtain ⟨pattern, body⟩ := case
    obtain ⟨hbody, hrest⟩ := List.forall_mem_cons.mp hsame
    rw [evalCases, evalCases]
    by_cases hmatched : (Matching.check c.toplevel value pattern).matched = true
    · rw [if_pos (by simp [hmatched]), if_pos (by simp [hmatched])]
      -- with all names of the pattern bound, the scopes agree on what is left free
      have hbody' := hbody.extend (Matching.boundNames_of_matched hmatched)
      apply InStep.bind (ih.eval body hc hbody')
      intro result
      apply reportPattern_inStep
      exact evalCases_chosen_inStep hregistry hc
    · rw [if_neg (by simp [hmatched]), if_neg (by simp [hmatched])]
      apply lookAt_inStep hregistry hc
      apply reportPattern_inStep
      exact ih.evalCases rest hc hrest

section

variable (hregistry : registry.IsRepeatable) (ih : ScopedAt registry fuel)
  (hc : c.IsRealIn registry)
include hregistry ih hc

/-- A look at code that is not taken, and then the code that is. -/
theorem taken_inStep {other taken : Expr} (hsame : taken.SeesSame [] scope scope') :
  InStep (World.Alike registry) (do lookAt fuel c scope other; eval fuel c scope taken)
    (do lookAt fuel c scope' other; eval fuel c scope' taken)
  := lookAt_inStep hregistry hc (ih.eval taken hc hsame)

/-- The same branch of a conditional is taken in either scope. -/
theorem conditional_inStep (id : NodeId) (condition thenCase elseCase : Expr)
    (hsame : (Expr.conditional id condition thenCase elseCase).SeesSame [] scope scope') :
  InStep (World.Alike registry)
    (evalNode (fuel + 1) c scope (.conditional id condition thenCase elseCase))
    (evalNode (fuel + 1) c scope' (.conditional id condition thenCase elseCase))
  := by
  have hcondition : condition.SeesSame [] scope scope' := hsame.child rfl (by simp [Expr.children])
  have hthen : thenCase.SeesSame [] scope scope' := hsame.child rfl (by simp [Expr.children])
  have helse : elseCase.SeesSame [] scope scope' := hsame.child rfl (by simp [Expr.children])
  rw [evalNode, evalNode]
  apply InStep.bind (ih.eval condition hc hcondition)
  intro condition
  split
  · exact taken_inStep hregistry ih hc helse
  · exact taken_inStep hregistry ih hc helse
  · split
    · apply lookAt_inStep hregistry hc
      apply lookAt_inStep hregistry hc
      exact .done
    · apply InStep.bind (ih.eval thenCase hc hthen)
      intro value
      apply lookAt_inStep hregistry hc
      exact .done

/-- The same code of a feature flag is taken in either scope. -/
theorem featureFlag_inStep (id : NodeId) (condition oldCode newCode : Expr)
    (hsame : (Expr.featureFlag id condition oldCode newCode).SeesSame [] scope scope') :
  InStep (World.Alike registry)
    (evalNode (fuel + 1) c scope (.featureFlag id condition oldCode newCode))
    (evalNode (fuel + 1) c scope' (.featureFlag id condition oldCode newCode))
  := by
  have hcondition : condition.SeesSame [] scope scope' := hsame.child rfl (by simp [Expr.children])
  have hold : oldCode.SeesSame [] scope scope' := hsame.child rfl (by simp [Expr.children])
  have hnew : newCode.SeesSame [] scope scope' := hsame.child rfl (by simp [Expr.children])
  rw [evalNode, evalNode]
  apply InStep.bind (ih.eval condition hc hcondition).caught
  intro condition
  split
  · exact taken_inStep hregistry ih hc hnew
  · exact taken_inStep hregistry ih hc hold

end

/-- A constructor is in step with its payload. -/
theorem constructor_inStep (ih : ScopedAt registry fuel) (hc : c.IsRealIn registry)
    (id : NodeId) (name : String) (args : List Expr)
    (hsame : (Expr.constructor id name args).SeesSame [] scope scope') :
  InStep (World.Alike registry) (evalNode (fuel + 1) c scope (.constructor id name args))
    (evalNode (fuel + 1) c scope' (.constructor id name args))
  := by
  have hargs : ∀ arg ∈ args, arg.SeesSame [] scope scope' := fun arg harg => hsame.child rfl harg
  unfold evalNode
  dsimp only
  split
  · exact .done
  · apply InStep.bind (ih.eval _ hc (hargs _ List.mem_cons_self))
    intro _
    exact .done
  · apply InStep.bind (ih.eval _ hc (hargs _ List.mem_cons_self))
    intro _
    exact .done
  · apply InStep.bind (ih.eval _ hc (hargs _ List.mem_cons_self))
    intro _
    exact .done
  · split
    · exact .done
    · exact .done

/-- A binding is in step with its value, and with its body where the name is bound. -/
theorem letIn_inStep (ih : ScopedAt registry fuel) (hc : c.IsRealIn registry)
    (id : NodeId) (name : String) (value body : Expr)
    (hsame : (Expr.letIn id name value body).SeesSame [] scope scope') :
  InStep (World.Alike registry) (evalNode (fuel + 1) c scope (.letIn id name value body))
    (evalNode (fuel + 1) c scope' (.letIn id name value body))
  := by
  have hvalue : value.SeesSame [] scope scope' := hsame.part List.mem_cons_self
  have hbody := hsame.part (List.mem_cons_of_mem _ List.mem_cons_self)
  rw [evalNode, evalNode]
  apply InStep.bind (ih.eval value hc hvalue)
  intro result
  split
  · exact .done
  · apply ih.eval body hc
    split
    · next hname =>
      rw [if_pos hname] at hbody
      exact hbody
    · next hname =>
      rw [if_neg hname] at hbody
      have hbound : ∀ other ∈ [name], other ∈ [(name, result)].map Prod.fst := fun _ hmem => hmem
      exact hbody.extend hbound

/-- The evaluation of a node is in step in scopes in which it sees the same. -/
theorem evalNode_inStep (hregistry : registry.IsRepeatable) (ih : ScopedAt registry fuel)
    (e : Expr) (hc : c.IsRealIn registry) (hsame : e.SeesSame [] scope scope') :
  InStep (World.Alike registry) (evalNode (fuel + 1) c scope e)
    (evalNode (fuel + 1) c scope' e)
  := by
  cases e with
  | blank | integer | float | bool | null | string | functionValue =>
    rw [evalNode, evalNode]
    exact .done
  | character id text =>
    rw [evalNode, evalNode]
    split
    · exact .done
    · exact .done
  | letIn id name value body => exact letIn_inStep ih hc id name value body hsame
  | list id items =>
    rw [evalNode, evalNode]
    apply InStep.bind (ih.evalItems items hc fun item hitem => hsame.child rfl hitem)
    rintro (rail | values)
    · exact .done
    · exact .done
  | record id fields =>
    rw [evalNode, evalNode]
    have hfields : ∀ field ∈ fields, field.2.SeesSame [] scope scope' :=
      fun field hfield => hsame.child rfl (List.mem_map_of_mem hfield)
    apply InStep.bind (ih.evalFields fields hc hfields)
    intro pairs
    exact .done
  | «variable» id name =>
    rw [evalNode, evalNode, hsame.get?]
    split
    · exact .done
    · split
      · exact .done
      · exact .done
  | fieldAccess id object field =>
    rw [evalNode, evalNode]
    apply InStep.bind (ih.eval object hc (hsame.child rfl List.mem_cons_self))
    intro value
    split
    · exact .done
    · split
      · exact .done
      · exact .done
  | lambda id parameters body =>
    obtain rfl := hsame.of_lambda
    rw [evalNode, if_neg (by rw [hc.1]; decide)]
    exact .done
  | conditional id condition thenCase elseCase =>
    exact conditional_inStep hregistry ih hc id condition thenCase elseCase hsame
  | featureFlag id condition oldCode newCode =>
    exact featureFlag_inStep hregistry ih hc id condition oldCode newCode hsame
  | constructor id name args => exact constructor_inStep ih hc id name args hsame
  | matchCases id scrutinee cases =>
    rw [evalNode, evalNode]
    apply InStep.bind (ih.eval scrutinee hc (hsame.part List.mem_cons_self))
    intro value
    have hcases : ∀ case ∈ cases, case.2.SeesSame case.1.boundNames scope scope' :=
      fun case hcase => hsame.part
        (List.mem_cons_of_mem _ (List.mem_map_of_mem (f := fun case : Pattern × Expr =>
          (case.1.boundNames, case.2)) hcase))
    apply InStep.bind (ih.evalCases cases hc hcases)
    intro chosen
    split
    · exact .done
    · split
      · exact .done
      · exact .done
  | apply id callee args position railUse =>
    rw [evalNode, evalNode]
    apply InStep.bind (ih.eval callee hc (hsame.child rfl List.mem_cons_self))
    intro callee
    have hargs : ∀ arg ∈ args, arg.SeesSame [] scope scope' :=
      fun arg harg => hsame.child rfl (List.mem_cons_of_mem _ harg)
    apply InStep.bind (ih.evalArgs args hc hargs)
    intro values
    apply InStep.bind (ih.applyValue hc)
    intro result
    cases position with
    | inPipe pipe =>
      apply InStep.skip Run.report_keepsAlike Run.report_keepsAlike
      intro _ _ _ _
      exact .done
    | notInPipe => exact .done

/-! ### Calls -/

theorem applyValue_inStep (ih : ScopedAt registry fuel) {id : NodeId} {callee : Value}
    {args : List Value} {position : PipePosition} {railUse : RailUse}
    (hc : c.IsRealIn registry) :
  InStep (World.Alike registry) (applyValue (fuel + 1) c id callee args position railUse)
    (applyValue (fuel + 1) c id callee args position railUse)
  := by
  cases callee with
  | named | lambda => exact ih.applyCallable hc
  | incomplete =>
    cases position with
    | inPipe pipe => exact .done
    | notInPipe => exact .done
  | _ => exact .done

theorem applyCallable_inStep (ih : ScopedAt registry fuel) {id : NodeId} {f : Callable}
    {args : List Value} {position : PipePosition} {railUse : RailUse}
    (hc : c.IsRealIn registry) :
  InStep (World.Alike registry) (applyCallable (fuel + 1) c id f args position railUse)
    (applyCallable (fuel + 1) c id f args position railUse)
  := by
  cases f with
  | named name =>
    rw [applyCallable]
    exact ih.call hc
  | lambda parameters captured body =>
    rw [applyCallable]
    split
    · exact .done
    · split
      · exact .done
      · exact ih.eval body hc .refl

/-- A call by name does not depend on the scope. -/
theorem call_inStep (hregistry : registry.IsRepeatable) (ih : ScopedAt registry fuel)
    {name : FunctionName} {id : NodeId} {args : List Value} {position : PipePosition}
    {railUse : RailUse} (hc : c.IsRealIn registry) :
  InStep (World.Alike registry) (call (fuel + 1) c name id args position railUse)
    (call (fuel + 1) c name id args position railUse)
  := by
  rw [call, hc.1, hc.2]
  split
  · exact .done
  · cases hf : Assoc.get? name registry with
    | none => exact .done
    | some f =>
      dsimp only
      split
      · exact .done
      · split
        · split
          · exact .done
          · exact .done
        · rw [← hregistry.named name f hf] at hf
          apply InStep.bind (ih.carryOut hc hf)
          intro result
          cases railUse with
          | rail => exact .done
          | noRail => exact .done

theorem carryOut_inStep (ih : ScopedAt registry fuel) {f : Function} {id : NodeId}
    {args : List Value} (hc : c.IsRealIn registry) (hf : Assoc.get? f.name registry = some f) :
  InStep (World.Alike registry) (carryOut (fuel + 1) c f id args)
    (carryOut (fuel + 1) c f id args)
  := by
  rw [carryOut]
  cases himplementation : f.implementation with
  | builtin b =>
    apply InStep.bind (ih.carryOutBuiltin (c := c.inCall f.name id) hc hf himplementation)
    intro result
    exact .done
  | written origin toplevel body =>
    dsimp only
    split
    · exact .done
    · split
      · exact .done
      · apply InStep.bind (ih.carryOutBody (c := c.inCall f.name id) hc)
        intro result
        exact .done

theorem carryOutBody_inStep (ih : ScopedAt registry fuel) {f : Function} {toplevel : ToplevelId}
    {body : Expr} {site : CallSite} {args : List Value} (hc : c.IsRealIn registry) :
  InStep (World.Alike registry) (carryOutBody (fuel + 1) c f toplevel body site args)
    (carryOutBody (fuel + 1) c f toplevel body site args)
  := by
  rw [carryOutBody, hc.1]
  apply InStep.skip Run.enter_keepsAlike Run.enter_keepsAlike
  intro _ _ _ _
  apply InStep.bind (ih.eval (c := c.inToplevel toplevel) body hc .refl)
  intro value
  apply InStep.skip Run.record_keepsAlike Run.record_keepsAlike
  intro _ _ _ _
  exact .done

/-- An impure built-in knows the same on either side, and the others do not depend on what
differs. -/
theorem carryOutBuiltin_inStep (hregistry : registry.IsRepeatable) (ih : ScopedAt registry fuel)
    {f : Function} {b : Builtin} {site : CallSite} {args : List Value}
    (hc : c.IsRealIn registry) (hf : Assoc.get? f.name registry = some f)
    (hb : f.implementation = .builtin b) :
  InStep (World.Alike registry) (carryOutBuiltin (fuel + 1) c f b site args)
    (carryOutBuiltin (fuel + 1) c f b site args)
  := by
  rw [carryOutBuiltin, hc.1]
  change InStep _ (if f.previewability = .impure ∧ ¬ true = true then _ else _)
    (if f.previewability = .impure ∧ ¬ true = true then _ else _)
  rw [if_neg (by simp)]
  apply InStep.invoke hf hc.1
  rintro ⟨now, sharing, i⟩ ⟨_, _, j⟩ rfl rfl hcalls
  have hstep : b.run ⟨now, sharing, i⟩ args = b.run ⟨now, sharing, j⟩ args := by
    by_cases himpure : f.previewability = .impure
    · rw [show i = j from hcalls himpure]
    · exact hregistry.repeatable f.name f b hf hb himpure now sharing i j args
  rw [hstep]
  apply InStep.bind (ih.runSteps _ hc).caught
  intro outcome
  split
  · apply InStep.skip Run.record_keepsAlike Run.record_keepsAlike
    intro _ _ _ _
    exact .done
  · exact .done

theorem runSteps_inStep (ih : ScopedAt registry fuel) {caller : NodeId} (step : BuiltinStep)
    (hc : c.IsRealIn registry) :
  InStep (World.Alike registry) (runSteps (fuel + 1) c caller step)
    (runSteps (fuel + 1) c caller step)
  := by
  cases step with
  | finish result => exact .done
  | fail reason => exact .fault
  | apply f args position railUse next =>
    rw [runSteps]
    apply InStep.bind (ih.applyCallable hc)
    intro value
    exact ih.runSteps _ hc

/-! ### Runs -/

/-- With any fuel, evaluation for real is in step in scopes in which the code sees the same. -/
theorem scopedAt (hregistry : registry.IsRepeatable) (fuel : Nat) :
  ScopedAt registry fuel
  := by
  induction fuel with
  | zero => constructor <;> intros <;> exact .outOfFuel
  | succ fuel ih =>
    exact {
      eval := eval_inStep ih
      evalNode := evalNode_inStep hregistry ih
      evalArgs := evalArgs_inStep ih
      evalItems := evalItems_inStep ih
      evalFields := evalFields_inStep ih
      evalCases := evalCases_inStep hregistry ih
      applyValue := applyValue_inStep ih
      applyCallable := applyCallable_inStep ih
      call := call_inStep hregistry ih
      carryOut := carryOut_inStep ih
      carryOutBody := carryOutBody_inStep ih
      carryOutBuiltin := carryOutBuiltin_inStep hregistry ih
      runSteps := runSteps_inStep ih }

/-- An expression without lambdas evaluates for real to the same value in two scopes that
agree on its free variables, from worlds that look alike. -/
theorem evaluates_congr {c : Context} (hmode : c.mode = .real)
    (hregistry : c.registry.IsRepeatable) {e : Expr} (he : e.IsFirstOrder)
    {scope scope' : Scope}
    (hagree : ∀ name i, e.OccursFree name i → Fields.get? name scope = Fields.get? name scope')
    {w w' : World} (hw : w.Alike c.registry w') {value value' : Value} {w₁ w₁' : World}
    (h : Evaluates c scope e w value w₁) (h' : Evaluates c scope' e w' value' w₁') :
  value = value' ∧ w₁.Alike c.registry w₁'
  := by
  obtain ⟨fuel, hrun⟩ := h.from_fuel
  obtain ⟨fuel', hrun'⟩ := h'.from_fuel
  -- runs are in step at the same fuel, so both are given what suffices for either
  have hrun := hrun _ (Nat.le_max_left fuel fuel')
  have hrun' := hrun' _ (Nat.le_max_right fuel fuel')
  have hsame : e.SeesSame [] scope scope' := .inr ⟨he, fun name i _ => hagree name i⟩
  have hstep := (scopedAt hregistry (max fuel fuel')).eval e ⟨hmode, rfl⟩ hsame w w' hw
  rw [hrun, hrun'] at hstep
  rcases hstep with hfuel | hfuel | ⟨houtcome, hw₁⟩
  · cases hfuel
  · cases hfuel
  · exact ⟨Outcome.done.inj houtcome, hw₁⟩

/-- An impure built-in that counts its calls. -/
def draw : Function where
  name := .stdlib "Counter" "draw" 0
  parameters := []
  returnType := .int
  description := "The number of its calls so far"
  previewability := .impure
  deprecation := .current
  implementation := .builtin ⟨fun known _ => .finish (.ok (.int known.calls)), false⟩

/-- Code whose first case fails, with a variable that its pattern would have bound. -/
def drawing : Expr :=
  .matchCases 1 (.constructor 2 "Nothing" [])
    [(.constructor 3 "Just" [.variable 4 "x"], .variable 5 "x"),
      (.variable 6 "y", .apply 7 (.functionValue 8 draw.name) [] .notInPipe .noRail)]

theorem not_occursFree_drawing {name : String} {i : NodeId} :
  ¬drawing.OccursFree name i
  := by
  rintro (_ | ⟨hpart, hname, h⟩)
  simp only [drawing, Expr.scopedParts, List.map_cons, List.map_nil, List.mem_cons,
    List.not_mem_nil, or_false, Prod.mk.injEq] at hpart
  rcases hpart with ⟨rfl, rfl⟩ | ⟨rfl, rfl⟩ | ⟨rfl, rfl⟩
  · rcases h with _ | ⟨hpart, -, -⟩
    cases hpart
  · rcases h with _ | ⟨hpart, -, -⟩
    · exact hname List.mem_cons_self
    · cases hpart
  · rcases h with _ | ⟨hpart, -, h⟩
    simp only [Expr.scopedParts, Expr.children, List.map_cons, List.map_nil, List.mem_cons,
      List.not_mem_nil, or_false, Prod.mk.injEq] at hpart
    obtain ⟨rfl, rfl⟩ := hpart
    rcases h with _ | ⟨hpart, -, -⟩
    cases hpart

/-- It does not matter what the variable is outside. -/
theorem evaluates_congr_drawing :
  ∃ w w', Evaluates (.start .real 0 0 (Stdlib.registry.addAll [draw]) []) [("x", .int 5)] drawing
      (.fresh ⟨0, 0⟩) (.int 1) w
    ∧ Evaluates (.start .real 0 0 (Stdlib.registry.addAll [draw]) []) [] drawing
      (.fresh ⟨0, 0⟩) (.int 1) w'
    ∧ w.Alike (Stdlib.registry.addAll [draw]) w'
  := by
  have hregistry : (Stdlib.registry.addAll [draw]).IsRepeatable := by
    apply Registry.isRepeatable_addAll
    intro f hf b _ hpure
    rw [List.mem_singleton.mp hf] at hpure
    exact absurd rfl hpure
  have hagree : ∀ name i, drawing.OccursFree name i →
      Fields.get? name [("x", Value.int 5)] = Fields.get? name ([] : Scope) := by
    intro name i h
    exact absurd h not_occursFree_drawing
  let c : Context := .start .real 0 0 (Stdlib.registry.addAll [draw]) []
  have hends : Outcome.passes (Value.same · (.int 1))
      (eval 20 c [("x", .int 5)] drawing (.fresh ⟨0, 0⟩)) = true := by decide +kernel
  have hends' : Outcome.passes (Value.same · (.int 1))
      (eval 20 c [] drawing (.fresh ⟨0, 0⟩)) = true := by decide +kernel
  obtain ⟨value, w, hrun, hvalue⟩ := Outcome.of_passes hends
  obtain rfl := Value.same_int_iff.mp hvalue
  obtain ⟨value', w', hrun', hvalue'⟩ := Outcome.of_passes hends'
  obtain rfl := Value.same_int_iff.mp hvalue'
  exact ⟨w, w', ⟨20, hrun⟩, ⟨20, hrun'⟩,
    (evaluates_congr rfl hregistry (by decide) hagree (.refl fun _ => rfl) ⟨20, hrun⟩
      ⟨20, hrun'⟩).2⟩

end Interpreter

end LiveExpr
