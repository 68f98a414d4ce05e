import LiveExpr.Proofs.Finishing
import LiveExpr.Proofs.Kinds
import LiveExpr.Proofs.Reached
import LiveExpr.Proofs.Unobserved
import LiveExpr.Proofs.Weight
import Mathlib.Data.List.Induction
import Mathlib.Data.List.Perm.Subperm

/-!
# Previews of first-order programs

A preview does not enter a function that is under way. So, if no lambdas are about, it comes
to an end however the functions of the program call each other: a call leaves fewer
functions to be entered, and between two calls the code that is left gets smaller. Main
statement: `finishes_of_isFirstOrder`.
-/

namespace LiveExpr

/-- Whether an expression is a lambda. -/
def Expr.isLambda : Expr → Bool
  | .lambda _ _ _ => true
  | _ => false

/-- Whether no lambda stands in an expression. -/
def Expr.IsFirstOrder (e : Expr) : Prop :=
  e.Every fun node => node.isLambda = false

instance (e : Expr) : Decidable e.IsFirstOrder :=
  inferInstanceAs (Decidable (∀ node ∈ e.subterms, node.isLambda = false))

/-- Whether a value is a lambda. -/
def Value.isLambda : Value → Bool
  | .lambda _ _ _ => true
  | _ => false

/-- Whether no lambda stands in a value. -/
def Value.IsFirstOrder (value : Value) : Prop :=
  value.Every fun inner => inner.isLambda = false

/-- Whether a function is written in the language, without lambdas. -/
def Function.IsFirstOrder (f : Function) : Prop :=
  ∃ origin toplevel body, f.implementation = .written origin toplevel body ∧ body.IsFirstOrder

/-- A function of first order is written, not built in. -/
theorem Function.IsFirstOrder.isBuiltin {f : Function} (h : f.IsFirstOrder) :
  f.isBuiltin = false
  := by
  obtain ⟨origin, toplevel, body, hf, -⟩ := h
  rw [Function.isBuiltin, hf]

theorem Value.allowsBuilding_isFirstOrder :
  AllowsBuilding fun value => value.isLambda = false
  where
  plain {value} _ _ hcallable := by cases value <;> first | rfl | cases hcallable
  list _ := rfl
  record _ := rfl
  just _ := rfl
  ok _ := rfl
  error _ := rfl
  rail _ := rfl
  option _ _ := rfl
  insert _ _ := rfl

/-- A lambda is no value of first order. -/
theorem Value.not_isFirstOrder_lambda {parameters : List (NodeId × String)} {scope : Scope}
    {body : Expr} :
  ¬ (Value.lambda parameters scope body).IsFirstOrder
  := fun h => nomatch h.self

/-! ### Functions that may be entered -/

/-- Under the name of a further function, one of the further functions is registered. -/
theorem Registry.exists_get?_addAll {registry : Registry} {fs : List Function}
    {name : FunctionName} (h : name ∈ fs.map Function.name) :
  ∃ f ∈ fs, Assoc.get? name (registry.addAll fs) = some f
  := by
  induction fs using List.reverseRecOn with
  | nil => cases h
  | append_singleton fs f ih =>
    rw [Registry.addAll, List.foldl_append]
    change ∃ g ∈ fs ++ [f], Assoc.get? name ((registry.addAll fs).add f) = some g
    rw [Registry.add, Assoc.get?_set]
    split
    · exact ⟨f, List.mem_append_right fs List.mem_cons_self, rfl⟩
    · next hname =>
      rw [List.map_append, List.mem_append, List.map_singleton, List.mem_singleton] at h
      obtain ⟨g, hg, hget⟩ := ih (h.resolve_right (Ne.symm hname))
      exact ⟨g, List.mem_append_left _ hg, hget⟩

/-- The number of functions that are not under way. -/
def CallStack.idle (fs : List Function) (stack : CallStack) : Nat :=
  (fs.filter fun f => f.name ∉ stack.names).length

namespace CallStack

variable {fs : List Function} {stack : CallStack} {frame : CallFrame}

theorem filter_cons :
  (fs.filter fun f => f.name ∉ names (frame :: stack))
    = (fs.filter fun f => f.name ∉ stack.names).filter fun f => f.name ≠ frame.name
  := by
  rw [List.filter_filter]
  apply List.filter_congr
  intro f _
  simp only [names_cons, List.mem_cons, not_or, Bool.decide_and]

/-- A call leaves no more functions idle than before. -/
theorem idle_cons_le :
  idle fs (frame :: stack) ≤ idle fs stack
  := by
  rw [idle, filter_cons]
  apply List.length_filter_le

/-- A call of a function that is not under way leaves fewer that are not. -/
theorem idle_cons_lt {f : Function} (hf : f ∈ fs) (hname : f.name = frame.name)
    (hidle : f.name ∉ stack.names) :
  idle fs (frame :: stack) < idle fs stack
  := by
  rw [idle, filter_cons]
  apply List.length_filter_lt_length_iff_exists.mpr
  refine ⟨f, List.mem_filter.mpr ⟨hf, ?_⟩, ?_⟩
  · simpa using hidle
  · simpa using hname

end CallStack

/-! ### The standard library -/

/-- Whether a built-in applies functions to one argument each time. -/
def BuiltinStep.AppliesSingly : BuiltinStep → Prop
  | .finish _ | .fail _ => True
  | .apply _ args _ _ next => args.length = 1 ∧ ∀ value, (next value).AppliesSingly

namespace Stdlib

/-- A map applies its function to one value at a time. -/
theorem mapItems_appliesSingly {f : Callable} {results items : List Value} :
  (mapItems f results items).AppliesSingly
  := by
  induction items generalizing results with
  | nil => trivial
  | cons item rest ih => exact ⟨rfl, fun _ => ih⟩

variable {f : Function} {b : Builtin} {known : BuiltinContext} {args : List Value}

/-- The built-ins of the library apply functions to one value at a time. -/
theorem appliesSingly_of_mem (hf : f ∈ contents) (hb : f.implementation = .builtin b) :
  (b.run known args).AppliesSingly
  := by
  rcases cases_of_mem hf with ⟨run, -, -, hrun⟩ | ⟨-, hrun⟩ | ⟨-, hrun⟩ | ⟨-, hrun⟩
  all_goals
    rw [hrun] at hb
    cases hb
  · trivial
  · trivial
  · change (mapList args).AppliesSingly
    unfold mapList
    split
    · split
      · apply mapItems_appliesSingly
      · trivial
    · trivial
  · trivial

/-- What is given one argument applies no function. -/
theorem run_singleton_of_mem (hf : f ∈ contents) (hb : f.implementation = .builtin b)
    (arg : Value) :
  ∃ result, b.run known [arg] = .finish result
  := by
  rcases cases_of_mem hf with ⟨run, -, -, hrun⟩ | ⟨-, hrun⟩ | ⟨-, hrun⟩ | ⟨-, hrun⟩
  all_goals
    rw [hrun] at hb
    cases hb
  · exact ⟨_, rfl⟩
  · exact ⟨_, rfl⟩
  · refine ⟨.error .wrongArguments, ?_⟩
    simp [mapList]
  · exact ⟨_, rfl⟩

end Stdlib

namespace Interpreter

open Interpreter.Frame (callsOf)

variable {fuel : Nat} {c : Context} {scope : Scope} {w : World} {n : Nat}

/-! ### Chains of calls -/

/-- Whether no chain of calls from a function of the interpreter is infinite, in the worlds
of a regime that admits it. -/
def Regime.Grounds (r : Regime) (activation : Activation) : Prop :=
  r.Admits activation → ∀ w, r.world w → Acc Calls (activation, w)

/-- The chains of calls from a function are finite if those from its calls are. -/
theorem Regime.IsLawful.grounds {r : Regime} (h : r.IsLawful) {activation : Activation}
    (hcalls : r.Admits activation → ∀ fuel w, ∀ t ∈ callsOf fuel w activation,
      r.Grounds t.activation) :
  r.Grounds activation
  := by
  intro ha w hw
  constructor
  rintro ⟨callee, w'⟩ ⟨fuel, ht⟩
  obtain ⟨hcallee, hw'⟩ := callsOf_covered (h.kept fuel) h hw ha _ ht
  exact hcalls ha fuel w _ ht hcallee w' hw'

/-- Code is evaluated in finite chains of calls if values are applied so with the same calls
under way. -/
theorem code_grounded {r : Regime} (h : r.IsLawful) {stack : CallStack}
    (happly : ∀ c id callee args position railUse, c.stack = stack →
      r.Grounds (.applyValue c id callee args position railUse))
    {activation : Activation} (hcode : activation.isCode = true)
    (hstack : activation.context.stack = stack) :
  r.Grounds activation
  := by
  induction hweight : activation.weight using Nat.strongRecOn generalizing activation with
  | ind n ih =>
    apply h.grounds
    intro _ fuel w t ht
    -- what is called keeps the calls under way, so only values that are applied are left
    have hlighter := callsOf_lighter hcode t ht
    rw [hstack, hweight] at hlighter
    generalize t.activation = callee at hlighter
    cases hlighter with
    | code hcode hstack hlt => exact ih _ hlt hcode hstack rfl
    | apply hstack => exact happly _ _ _ _ _ _ hstack

/-! ### The regime -/

/-- The regime of previews without lambdas. -/
def firstOrder (fs : List Function) : Regime where
  context c := c.mode = .preview ∧ c.registry = Stdlib.registry.addAll fs
  entered c f _ := (c.mode = .preview ∧ c.registry = Stdlib.registry.addAll fs)
    ∧ ∃ name, Assoc.get? name (Stdlib.registry.addAll fs) = some f
  node _ node := node.isLambda = false
  place _ _ := True
  kind := Value.IsFirstOrder
  bound := Value.IsFirstOrder
  world := World.Recalls fun _ value => value.IsFirstOrder
  faults := True

variable {fs : List Function}

section

variable (hfs : ∀ f ∈ fs, f.IsFirstOrder)

include hfs

/-- A function of the program that is written in the language has a body without lambdas. -/
theorem isFirstOrder_body {name : FunctionName} {f : Function}
    (hf : Assoc.get? name (Stdlib.registry.addAll fs) = some f) {origin : Origin}
    {toplevel : ToplevelId} {body : Expr}
    (hbody : f.implementation = .written origin toplevel body) :
  f ∈ fs ∧ body.IsFirstOrder
  := by
  rcases Stdlib.mem_of_get?_addAll hf with hmem | hmem
  · use hmem
    obtain ⟨_, _, _, himplementation, hfirst⟩ := hfs f hmem
    rw [hbody] at himplementation
    cases himplementation
    exact hfirst
  · obtain ⟨b, hb⟩ := Stdlib.exists_builtin_of_mem hmem
    rw [hbody] at hb
    cases hb

/-- With functions of first order added, the built-ins are those of the library. -/
theorem mem_contents_of_isFirstOrder {name : FunctionName} {f : Function} {b : Builtin}
    (hf : Assoc.get? name (Stdlib.registry.addAll fs) = some f)
    (hb : f.implementation = .builtin b) :
  f ∈ Stdlib.contents
  := Stdlib.mem_contents_of_builtin (fun f hf => (hfs f hf).isBuiltin) hf hb

/-- Evaluation stays of first order. -/
theorem firstOrder_isLawful :
  (firstOrder fs).IsLawful
  where
  toClosedValues :=
    Value.allowsBuilding_isFirstOrder.closedValues (fun _ => rfl) fun _ => rfl
  id _ := trivial
  pattern _ _ _ _ _ := trivial
  parameter _ _ _ := trivial
  named _ := Value.every_of_isAtom rfl rfl
  lambda hcode _ := nomatch hcode.self
  captured hlambda := absurd hlambda Value.not_isFirstOrder_lambda
  applied _ hlambda := absurd hlambda Value.not_isFirstOrder_lambda
  lookAside hc := ⟨rfl, hc.2⟩
  enters hc _ hf _ := ⟨hc, _, hc.2 ▸ hf⟩
  inside hentered := hentered.1
  inToplevel hentered hbody := by
    obtain ⟨hc, name, hf⟩ := hentered
    exact ⟨hc, (isFirstOrder_body hfs hf hbody).2⟩
  builtin hentered hb hargs hreal := by
    obtain ⟨-, name, hf⟩ := hentered
    have hmem := mem_contents_of_isFirstOrder hfs hf hb
    exact Value.allowsBuilding_isFirstOrder.contents_stay hmem hb hargs hreal
  report _ _ _ := Run.report_recalls
  enter _ := Run.enter_recalls
  load _ := Run.load_recalls
  invoke _ _ := Run.invoke_recalls
  record _ _ _ hvalue := Run.record_recalls hvalue
  body _ _ _ heval := by
    apply carryOutBody_keeps Run.enter_recalls Run.load_recalls fun _ => Run.record_recalls
    exact heval.mono (fun hfaults => hfaults) fun _ => Value.AllowsBuilding.every_offRail

/-! ### Calls of functions -/

/-- Whether all code is evaluated in finite chains of calls where fewer than `n` functions
of the program are not under way. -/
def IsGroundedBelow (fs : List Function) (n : Nat) : Prop :=
  ∀ c scope e, c.stack.idle fs < n → (firstOrder fs).Grounds (.eval c scope e)

/-- Whether the built-ins of the library, given some arguments, take their steps in finite
chains of calls where at most `n` functions of the program are not under way. -/
def StepsGrounded (fs : List Function) (n : Nat) (args : List Value) : Prop :=
  ∀ f ∈ Stdlib.contents, ∀ b, f.implementation = .builtin b → ∀ c caller known,
    c.stack.idle fs ≤ n → (firstOrder fs).Grounds (.runSteps c caller (b.run known args))

/-- The body of a function is evaluated with one function less that is not under way. -/
theorem carryOutBody_grounded (hbelow : IsGroundedBelow fs n) {f : Function}
    {toplevel : ToplevelId} {body : Expr} {site : CallSite} {args : List Value}
    (hc : c.stack.idle fs < n) :
  (firstOrder fs).Grounds (.carryOutBody c f toplevel body site args)
  := by
  apply (firstOrder_isLawful hfs).grounds
  intro _ fuel w t ht
  rw [callsOf] at ht
  obtain ⟨_, w₁, -, ht⟩ := Frame.mem_after ht
  obtain ⟨recorded, w₂, -, ht⟩ := Frame.mem_after ht
  cases recorded with
  | some result => cases ht
  | none =>
    obtain rfl := List.mem_singleton.mp ht
    exact hbelow _ _ _ hc

/-- A built-in is carried out in finite chains of calls if it takes its steps so. -/
theorem carryOutBuiltin_grounded {f : Function} {b : Builtin} {site : CallSite}
    {args : List Value} (hsteps : StepsGrounded fs n args)
    (hc : c.stack.idle fs ≤ n) :
  (firstOrder fs).Grounds (.carryOutBuiltin c f b site args)
  := by
  apply (firstOrder_isLawful hfs).grounds
  intro hadmits fuel w t ht
  obtain ⟨⟨-, name, hf⟩, hb, -⟩ := hadmits
  have hmem := mem_contents_of_isFirstOrder hfs hf hb
  rw [callsOf] at ht
  obtain ⟨recorded, w₁, -, ht⟩ := Frame.mem_after ht
  cases recorded with
  | some result => cases ht
  | none =>
    dsimp only at ht
    split at ht
    · cases ht
    · obtain ⟨known, w₂, -, ht⟩ := Frame.mem_after ht
      obtain rfl := List.mem_singleton.mp ht
      exact hsteps f hmem b hb _ _ _ hc

/-- A function is carried out in finite chains of calls: its body has one function less
that is not under way. -/
theorem carryOut_grounded (hbelow : IsGroundedBelow fs n) {f : Function} {id : NodeId}
    {args : List Value} (hsteps : StepsGrounded fs n args)
    (hc : c.stack.idle fs ≤ n) :
  (firstOrder fs).Grounds (.carryOut c f id args)
  := by
  apply (firstOrder_isLawful hfs).grounds
  intro hadmits fuel w t ht
  obtain ⟨⟨hmode, hregistry⟩, -, ⟨name, -, hf⟩, -⟩ := hadmits
  rw [hregistry] at hf
  rw [callsOf] at ht
  split at ht
  · next b hb =>
    obtain rfl := List.mem_singleton.mp ht
    exact carryOutBuiltin_grounded hfs hsteps (CallStack.idle_cons_le.trans hc)
  · next origin toplevel body hbody =>
    split at ht
    · cases ht
    · next hunder =>
      split at ht
      · cases ht
      · obtain rfl := List.mem_singleton.mp ht
        have hmem := (isFirstOrder_body hfs hf hbody).1
        -- a preview that gets past the guard enters a function that is not under way
        have hidle : f.name ∉ c.stack.names := by
          rw [← CallStack.outerCall?_eq_none, ← Option.not_isSome_iff_eq_none]
          exact fun hsome => hunder ⟨hmode, hsome⟩
        exact carryOutBody_grounded hfs hbelow ((CallStack.idle_cons_lt hmem rfl hidle).trans_le hc)

/-- A call by name is made in finite chains of calls. -/
theorem call_grounded (hbelow : IsGroundedBelow fs n) {name : FunctionName} {id : NodeId}
    {args : List Value} {position : PipePosition} {railUse : RailUse}
    (hsteps : StepsGrounded fs n args) (hc : c.stack.idle fs ≤ n) :
  (firstOrder fs).Grounds (.call c name id args position railUse)
  := by
  apply (firstOrder_isLawful hfs).grounds
  intro _ fuel w t ht
  rw [callsOf] at ht
  split at ht
  · cases ht
  · split at ht
    · cases ht
    · split at ht
      · cases ht
      · split at ht
        · cases ht
        · obtain rfl := List.mem_singleton.mp ht
          exact carryOut_grounded hfs hbelow hsteps hc

/-- A function value is applied in finite chains of calls. -/
theorem applyCallable_grounded (hbelow : IsGroundedBelow fs n) {id : NodeId} {f : Callable}
    {args : List Value} {position : PipePosition} {railUse : RailUse}
    (hsteps : StepsGrounded fs n args) (hc : c.stack.idle fs ≤ n) :
  (firstOrder fs).Grounds (.applyCallable c id f args position railUse)
  := by
  apply (firstOrder_isLawful hfs).grounds
  intro hadmits fuel w t ht
  cases f with
  | named name =>
    obtain rfl := List.mem_singleton.mp ht
    exact call_grounded hfs hbelow hsteps hc
  | lambda parameters captured body =>
    -- there are no lambdas to be applied
    obtain ⟨-, -, hf, -⟩ := hadmits
    exact absurd hf Value.not_isFirstOrder_lambda

theorem finish_grounded {caller : NodeId} {result : Except BuiltinError Value} :
  (firstOrder fs).Grounds (.runSteps c caller (.finish result))
  := by
  apply (firstOrder_isLawful hfs).grounds
  intro _ fuel w t ht
  cases ht

/-- Given one argument, the built-ins of the library end at once. -/
theorem stepsGrounded_singleton (arg : Value) :
  StepsGrounded fs n [arg]
  := by
  intro f hf b hb c caller known _
  obtain ⟨result, hrun⟩ := Stdlib.run_singleton_of_mem hf hb arg
  rw [hrun]
  apply finish_grounded hfs

/-- A built-in takes its steps in finite chains of calls if it applies functions singly. -/
theorem runSteps_grounded (hbelow : IsGroundedBelow fs n) {caller : NodeId}
    {step : BuiltinStep} (hstep : step.AppliesSingly)
    (hc : c.stack.idle fs ≤ n) :
  (firstOrder fs).Grounds (.runSteps c caller step)
  := by
  induction step with
  | finish result => apply finish_grounded hfs
  | fail reason =>
    apply (firstOrder_isLawful hfs).grounds
    intro _ fuel w t ht
    cases ht
  | apply f args position railUse next ih =>
    obtain ⟨hargs, hnext⟩ := hstep
    obtain ⟨arg, rfl⟩ := List.length_eq_one_iff.mp hargs
    apply (firstOrder_isLawful hfs).grounds
    intro _ fuel w t ht
    rcases List.mem_cons.mp ht with rfl | ht
    · exact applyCallable_grounded hfs hbelow (stepsGrounded_singleton hfs arg) hc
    · obtain ⟨value, w', -, ht⟩ := Frame.mem_after ht
      obtain rfl := List.mem_singleton.mp ht
      exact ih value (hnext value)

/-- A value is applied in finite chains of calls. -/
theorem applyValue_grounded (hbelow : IsGroundedBelow fs n) {id : NodeId} {callee : Value}
    {args : List Value} {position : PipePosition} {railUse : RailUse}
    (hc : c.stack.idle fs ≤ n) :
  (firstOrder fs).Grounds (.applyValue c id callee args position railUse)
  := by
  have hsteps : StepsGrounded fs n args := fun f hf b hb _ _ _ hidle =>
    runSteps_grounded hfs hbelow (Stdlib.appliesSingly_of_mem hf hb) hidle
  apply (firstOrder_isLawful hfs).grounds
  intro _ fuel w t ht
  rw [callsOf] at ht
  split at ht
  · obtain rfl := List.mem_singleton.mp ht
    exact applyCallable_grounded hfs hbelow hsteps hc
  · cases ht

/-- Code is evaluated in finite chains of calls, by induction on the number of functions that
are not under way. -/
theorem isGroundedBelow :
  ∀ n, IsGroundedBelow fs n
  | 0 => fun _ _ _ h => nomatch h
  | n + 1 => by
    have hbelow := isGroundedBelow n
    intro c scope e hc
    apply code_grounded (firstOrder_isLawful hfs) _ rfl rfl
    intro c' id callee args position railUse hstack
    apply applyValue_grounded hfs hbelow
    rw [hstack]
    exact Nat.le_of_lt_succ hc

/-! ### Nesting -/

/-- Whether a preview is inside of calls since another context, of which none is of a
function of the program for the second time. -/
def IsNestedIn (fs : List Function) (c c' : Context) : Prop :=
  (c'.mode = .preview ∧ c'.registry = Stdlib.registry.addAll fs)
    ∧ ∃ pushed : CallStack, c'.stack = pushed ++ c.stack
      ∧ (pushed.names.filter fun name => name ∈ fs.map Function.name).Nodup

/-- A function of the program is entered if it is not under way; the names of built-ins are
no names of the program. -/
theorem IsNestedIn.inCall {c' : Context}
    (hc' : IsNestedIn fs c c') {name : FunctionName} {f : Function}
    (hf : Assoc.get? name c'.registry = some f)
    (hguard : f.isBuiltin = false → c'.mode = .preview → c'.stack.outerCall? f.name = none)
    (id : NodeId) :
  IsNestedIn fs c (c'.inCall f.name id)
  := by
  obtain ⟨⟨hmode, hregistry⟩, pushed, hstack, hnodup⟩ := hc'
  refine ⟨⟨hmode, hregistry⟩, ⟨f.name, id⟩ :: pushed, ?_, ?_⟩
  · rw [Context.inCall, hstack, List.cons_append]
  · rw [CallStack.names_cons, List.filter_cons]
    split
    · next hname =>
      rw [hregistry] at hf
      obtain rfl := Registry.name_of_get?_addAll Stdlib.name_of_get? hf
      -- a function with the name of one of the program is one of the program
      obtain ⟨g, hg, hget⟩ := Registry.exists_get?_addAll (by simpa using hname)
      obtain rfl := Option.some.inj (hf.symm.trans hget)
      have hunder := hguard (hfs f hg).isBuiltin hmode
      rw [CallStack.outerCall?_eq_none, hstack] at hunder
      apply List.nodup_cons.mpr
      refine ⟨fun hmem => hunder ?_, hnodup⟩
      rw [CallStack.names, List.map_append]
      exact List.mem_append_left _ (List.mem_filter.mp hmem).1
    · exact hnodup

theorem closedContexts_nested (c : Context) :
  ClosedContexts (IsNestedIn fs c) (fun c' _ _ => IsNestedIn fs c c') fun _ => True
  where
  lookAside hc' := ⟨⟨rfl, hc'.1.2⟩, hc'.2⟩
  enters {_ _ _ id} hc' hf hguard := hc'.inCall hfs hf hguard id
  inside hentered := hentered
  inToplevel hentered := hentered
  report _ _ _ := ⟨trivial, Outcome.meets_trivial _⟩
  enter _ _ _ := ⟨trivial, Outcome.meets_trivial _⟩
  load _ _ _ := ⟨trivial, Outcome.meets_trivial _⟩
  invoke _ _ _ := ⟨trivial, Outcome.meets_trivial _⟩
  record _ _ _ _ _ := ⟨trivial, Outcome.meets_trivial _⟩
  body _ _ _ _ _ := ⟨trivial, Outcome.meets_trivial _⟩

/-- What a preview reaches is inside of no call of a function of the program twice. -/
theorem nested_of_reaches (hmode : c.mode = .preview)
    (hregistry : c.registry = Stdlib.registry.addAll fs) {e : Expr} {t : Frame}
    (ht : Frame.Reaches ⟨fuel, .eval c scope e, w⟩ t) :
  IsNestedIn fs c t.context
  := by
  have hlawful := (closedContexts_nested hfs c).isLawful
  have hc : IsNestedIn fs c c := ⟨⟨hmode, hregistry⟩, [], rfl, List.nodup_nil⟩
  have hadmits : (Regime.ofContexts (IsNestedIn fs c) (fun c' _ _ => IsNestedIn fs c c')
      fun _ => True).Admits (.eval c scope e) := ⟨hc, fun _ _ => trivial, fun _ _ => trivial⟩
  exact hlawful.context (hlawful.reached ht hadmits trivial).1

end

/-! ### Runs -/

/-- A preview of a program without lambdas, over values without lambdas, comes to an end,
with a value if its store does not fail; more fuel does not change it. Whatever it reaches
is inside of no call of a function of the program twice since the preview began, and so
inside of at most as many such calls as there are functions. -/
theorem finishes_of_isFirstOrder (hfs : ∀ f ∈ fs, f.IsFirstOrder) (hmode : c.mode = .preview)
    (hregistry : c.registry = Stdlib.registry.addAll fs)
    (hscope : scope.All Value.IsFirstOrder) {e : Expr} (he : e.IsFirstOrder)
    (hw : w.Recalls fun _ value => value.IsFirstOrder) :
  (∃ n outcome w', outcome ≠ .outOfFuel
      ∧ (w.store.IsReliable → ∃ value, outcome = .done value)
      ∧ ∀ fuel ≥ n, eval fuel c scope e w = (outcome, w'))
    ∧ ∀ fuel t, Frame.Reaches ⟨fuel, .eval c scope e, w⟩ t →
      ∃ pushed : CallStack, t.context.stack = pushed ++ c.stack
        ∧ (pushed.names.filter fun name => name ∈ fs.map Function.name).Nodup
        ∧ (pushed.names.filter fun name => name ∈ fs.map Function.name).length ≤ fs.length
  := by
  constructor
  · have hground := isGroundedBelow hfs (c.stack.idle fs + 1) c scope e (Nat.lt_succ_self _)
    have hacc := hground ⟨⟨hmode, hregistry⟩, hscope, he⟩ w hw
    have hfinishes : Run.Finishes (fun fuel => eval fuel c scope e) w :=
      Activation.finishes_of_acc hacc
    obtain ⟨⟨outcome, w'⟩, hending, hrun⟩ := hfinishes
    obtain ⟨n, hrun⟩ := Filter.eventually_atTop.mp hrun
    refine ⟨n, outcome, w', hending, ?_, hrun⟩
    intro hreliable
    have hquiet := (stable_quiet w.now w.impureCalls).kept n
    have hmeets : (eval n c scope e w).1.Meets False fun _ => True :=
      (hquiet.eval e hmode (fun _ _ => trivial) w ⟨⟨rfl, hreliable⟩, rfl⟩).2
    have hending' : eval n c scope e w = (outcome, w') := hrun n le_rfl
    rw [hending'] at hmeets
    cases outcome with
    | done value => exact ⟨value, rfl⟩
    | fault reason => exact hmeets.elim
    | outOfFuel => exact absurd rfl hending
  · intro fuel t ht
    obtain ⟨-, pushed, hstack, hnodup⟩ := nested_of_reaches hfs hmode hregistry ht
    refine ⟨pushed, hstack, hnodup, ?_⟩
    have hsubset : (pushed.names.filter fun name => name ∈ fs.map Function.name)
        ⊆ fs.map Function.name := fun _ hname => by simpa using (List.mem_filter.mp hname).2
    have hlength := (hnodup.subperm hsubset).length_le
    rwa [List.length_map] at hlength

/-- A function of a program with one parameter. -/
def unary (name : String) (toplevel : ToplevelId) (body : Expr) : Function where
  name := .user name
  parameters := [⟨"x", .any, ""⟩]
  returnType := .any
  description := ""
  previewability := .pure
  deprecation := .current
  implementation := .written .user toplevel body

/-- Two functions that call each other, one through a function value. -/
def pingPong : List Function :=
  [ unary "ping" 20 (.apply 21 (.functionValue 22 (.stdlib "List" "map" 0))
      [.list 23 [.variable 24 "x"], .functionValue 25 (.user "pong")] .notInPipe .noRail),
    unary "pong" 30 (.apply 31 (.functionValue 32 (.user "ping")) [.variable 33 "x"]
      .notInPipe .noRail) ]

/-- A call of the first. -/
def pinging : Expr :=
  .apply 1 (.functionValue 2 (.user "ping")) [.integer 3 7] .notInPipe .noRail

/-- Functions that call each other for ever are cut off in a preview. -/
theorem finishes_of_isFirstOrder_pingPong :
  ∃ n value w', ∀ fuel ≥ n,
    eval fuel (.start .preview 1 0 (Stdlib.registry.addAll pingPong) []) [] pinging
      (.fresh ⟨0, 0⟩) = (.done value, w')
  := by
  have hfs : ∀ f ∈ pingPong, f.IsFirstOrder := by
    intro f hf
    rcases List.mem_cons.mp hf with rfl | hf
    · exact ⟨_, _, _, rfl, by decide⟩
    · obtain rfl := List.mem_singleton.mp hf
      exact ⟨_, _, _, rfl, by decide⟩
  have hresults : (World.fresh ⟨0, 0⟩).Recalls fun _ value => value.IsFirstOrder := by
    rintro _ _ _ ⟨⟩
  have hfinishes := finishes_of_isFirstOrder hfs
    (c := .start .preview 1 0 (Stdlib.registry.addAll pingPong) []) rfl rfl Fields.All.nil
    (e := pinging) (by decide) hresults
  obtain ⟨⟨n, outcome, w', -, hvalue, hrun⟩, -⟩ := hfinishes
  obtain ⟨value, rfl⟩ := hvalue fun _ => rfl
  exact ⟨n, value, w', hrun⟩

/-- The second call of the first function is incomplete. -/
example :
  let run := eval 30 (.start .preview 1 0 (Stdlib.registry.addAll pingPong) []) [] pinging
  let isCutOffAt : Outcome Value → Source → Bool
    | .done (.list [.incomplete source]), place => source == place
    | _, _ => false
  isCutOffAt (run (.fresh ⟨0, 0⟩)).1 (.node 30 31) = true
  := by decide +kernel

end Interpreter

end LiveExpr
