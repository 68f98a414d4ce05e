import LiveExpr.Proofs.Confinement
import LiveExpr.Proofs.Parts
import LiveExpr.Proofs.Patterns
import Mathlib.Data.List.Nodup
import Mathlib.Data.List.Pairwise

/-!
# Occurrences

Where a variable occurs free in an expression, and what such an occurrence is looked up as
while the expression is evaluated, the bodies of its lambdas included. A pattern that fails
binds nothing, so that in the preview of its body its variables are those of the scope around
the match, and holes only where that has none. Main statements: `Enters.looksUp`, what is
found in code is found wherever evaluation is at work in it, and
`evalNode_variable_of_not_isMatch`.
-/

namespace LiveExpr

namespace Expr

/-- The direct parts of an expression, each with the names that are bound over it. -/
def scopedParts : Expr → List (List String × Expr)
  | .letIn _ name value body => [([], value), (if name.isEmpty then [] else [name], body)]
  | .lambda _ parameters body => [(parameters.map Prod.snd, body)]
  | .matchCases _ scrutinee cases =>
    ([], scrutinee) :: cases.map fun case => (case.1.boundNames, case.2)
  | e => e.children.map fun part => ([], part)

/-- Whether a variable occurs at a node of an expression without being bound in it. -/
inductive OccursFree (name : String) (i : NodeId) : Expr → Prop where
  | here : OccursFree name i (.variable i name)
  | part {e part : Expr} {names : List String} (hpart : (names, part) ∈ e.scopedParts)
      (hname : name ∉ names) (h : OccursFree name i part) : OccursFree name i e

variable {name : String} {i : NodeId} {e part : Expr} {names : List String}

/-- The parts of an expression with the names bound over them are its parts. -/
theorem scopedParts_snd (e : Expr) :
  e.scopedParts.map Prod.snd = e.children
  := by
  cases e <;> simp [scopedParts, children, Function.comp_def]

theorem self_mem_ids (e : Expr) :
  e.id ∈ e.ids
  := by
  rw [ids_eq, List.mem_append]
  left
  unfold ownIds
  split <;> simp [id]

/-- The identifiers of a part are identifiers of the whole. -/
theorem ids_of_part (hpart : (names, part) ∈ e.scopedParts) :
  part.ids ⊆ e.ids
  := by
  intro i hi
  rw [ids_eq, List.mem_append, List.mem_flatMap, ← scopedParts_snd]
  exact .inr ⟨part, List.mem_map_of_mem hpart, hi⟩

/-- What occurs free in an expression is a node of it. -/
theorem OccursFree.mem_ids (h : OccursFree name i e) :
  i ∈ e.ids
  := by
  induction h with
  | here => exact self_mem_ids (.variable i name)
  | part hpart _ _ ih => exact ids_of_part hpart ih

/-- The parts of an expression with distinct nodes have distinct nodes, and none in
common. -/
theorem nodup_scopedParts (h : e.ids.Nodup) :
  (∀ part ∈ e.scopedParts, part.2.ids.Nodup)
    ∧ e.scopedParts.Pairwise fun part other => part.2.ids.Disjoint other.2.ids
  := by
  rw [ids_eq, ← scopedParts_snd, List.flatMap_map] at h
  exact List.nodup_flatMap.mp (List.nodup_append.mp h).2.1

/-- A free occurrence in an expression with distinct nodes is one in the part in which it
stands, and not bound over it. -/
theorem OccursFree.of_part (h : OccursFree name i e) (hnodup : e.ids.Nodup)
    (hpart : (names, part) ∈ e.scopedParts) (hi : i ∈ part.ids) :
  name ∉ names ∧ OccursFree name i part
  := by
  cases h with
  | here => cases hpart
  | @part _ other others hother hname h =>
    have hdisjoint := (nodup_scopedParts hnodup).2
    have : Std.Symm fun part other : List String × Expr => part.2.ids.Disjoint other.2.ids :=
      ⟨fun _ _ h _ hi hj => h hj hi⟩
    have heq : (names, part) = (others, other) := by
      by_contra hne
      exact hdisjoint.forall hpart hother hne hi h.mem_ids
    obtain ⟨rfl, rfl⟩ := Prod.mk.inj heq
    exact ⟨hname, h⟩

end Expr

/-! ### Scopes -/

/-- A name that is not bound anew means what it meant. -/
theorem Fields.get?_extend_of_not_mem {α : Type} {fields : Fields α}
    {pairs : List (String × α)} {name : String} (h : name ∉ pairs.map Prod.fst) :
  (fields.extend pairs).get? name = fields.get? name
  := by
  induction pairs generalizing fields with
  | nil => rfl
  | cons pair rest ih =>
    rw [List.map_cons, List.mem_cons, not_or] at h
    change ((fields.insert pair.1 pair.2).extend rest).get? name = _
    rw [ih h.2, get?_insert, if_neg (Ne.symm h.1)]

/-- A match only binds names that the pattern binds. -/
theorem Pattern.Matches.mem_boundNames {pattern : Pattern} {value bound : Value}
    {binding : Option (String × Value)} {name : String} (h : pattern.Matches value binding)
    (hbinding : binding = some (name, bound)) :
  name ∈ pattern.boundNames
  := by
  induction h with
  | integer | bool | string | character | float | null | nothing => cases hbinding
  | «variable» =>
    cases hbinding
    exact List.mem_singleton_self _
  | just _ _ _ ih | ok _ _ _ ih | error _ _ _ ih =>
    rw [boundNames, namesOfList]
    exact List.mem_append_left _ (ih hbinding)

/-- A pattern leaves alone what it does not bind. -/
theorem Matching.get?_extend_check {toplevel : ToplevelId} {value : Value} {pattern : Pattern}
    {scope : Scope} {name : String} (h : name ∉ pattern.boundNames) :
  Fields.get? name ((check toplevel value pattern).extend scope) = Fields.get? name scope
  := by
  by_cases hmatch : pattern.IsMatch value
  · obtain ⟨binding, hmatch⟩ := hmatch
    rw [hmatch.extend_check]
    apply Fields.get?_extend_of_not_mem
    intro hname
    cases binding with
    | none => cases hname
    | some pair =>
      obtain rfl := List.mem_singleton.mp hname
      exact h (hmatch.mem_boundNames rfl)
  · rw [Pattern.extend_check_of_not_isMatch hmatch]

/-! ### Functions at work in code -/

namespace Interpreter

namespace Activation

/-- The variables in scope where a function is at work in code. -/
def scope? : Activation → Option Scope
  | eval _ scope _ | lookAt _ scope _ | evalNode _ scope _ | evalArgs _ scope _
  | evalItems _ scope _ | evalFields _ scope _ | evalCases _ scope _ _ _ => some scope
  | _ => none

/-- The code that a function is at work in, with the names that are still to be bound. -/
def code : Activation → List (List String × Expr)
  | eval _ _ e | lookAt _ _ e | evalNode _ _ e => [([], e)]
  | evalArgs _ _ es | evalItems _ _ es => es.map fun e => ([], e)
  | evalFields _ _ fields => fields.map fun field => ([], field.2)
  | evalCases _ _ _ cases _ => cases.map fun case => (case.1.boundNames, case.2)
  | _ => []

/-- The code that a function hands on to those that it calls. -/
def handed : Activation → List (List String × Expr)
  | evalNode _ _ e => e.scopedParts
  | activation => activation.code

/-- Whether a function is at work in parts of some code, where other variables than those
bound over a part are what they are in a scope. -/
def IsAtPart (code : List (List String × Expr)) (scope : Scope) (activation : Activation) :
    Prop :=
  ∀ inner, activation.scope? = some inner → ∀ part ∈ activation.code,
    ∃ names, (names, part.2) ∈ code
      ∧ ∀ name ∉ names, name ∉ part.1 ∧ Fields.get? name inner = Fields.get? name scope

variable {code : List (List String × Expr)} {scope : Scope} {activation : Activation}

theorem IsAtPart.elsewhere (h : activation.scope? = none) :
  activation.IsAtPart code scope
  := by
  intro inner hinner
  cases h.symm.trans hinner

theorem IsAtPart.same (hscope : activation.scope? = some scope)
    (hcode : activation.code ⊆ code) :
  activation.IsAtPart code scope
  := by
  intro inner hinner part hpart
  obtain rfl := Option.some.inj (hscope.symm.trans hinner)
  exact ⟨part.1, hcode hpart, fun name hname => ⟨hname, rfl⟩⟩

theorem IsAtPart.under {inner : Scope} {names : List String} {e : Expr}
    (hscope : activation.scope? = some inner) (hcode : activation.code = [([], e)])
    (hpart : (names, e) ∈ code)
    (hagree : ∀ name ∉ names, Fields.get? name inner = Fields.get? name scope) :
  activation.IsAtPart code scope
  := by
  intro inner' hinner part hmem
  obtain rfl := Option.some.inj (hscope.symm.trans hinner)
  rw [hcode, List.mem_singleton] at hmem
  subst hmem
  exact ⟨names, hpart, fun name hname => ⟨List.not_mem_nil, hagree name hname⟩⟩

end Activation

namespace Frame

/-- Whether calls are to functions at work in parts of some code. -/
def AllAtPart (code : List (List String × Expr)) (scope : Scope) (calls : List Frame) : Prop :=
  ∀ t ∈ calls, t.activation.IsAtPart code scope

variable {code : List (List String × Expr)} {scope : Scope} {fuel : Nat} {c : Context}
variable {w : World} {activation : Activation}

theorem AllAtPart.nil :
  AllAtPart code scope []
  := List.forall_mem_nil _

theorem AllAtPart.cons {calls : List Frame} (h : activation.IsAtPart code scope)
    (hcalls : AllAtPart code scope calls) :
  AllAtPart code scope (⟨fuel, activation, w⟩ :: calls)
  := List.forall_mem_cons.mpr ⟨h, hcalls⟩

theorem AllAtPart.single (h : activation.IsAtPart code scope) :
  AllAtPart code scope [⟨fuel, activation, w⟩]
  := .cons h .nil

theorem AllAtPart.after {α : Type} {run : Run α} {next : α → World → List Frame}
    (h : ∀ value w', AllAtPart code scope (next value w')) :
  AllAtPart code scope (after run w next)
  := by
  intro t ht
  obtain ⟨value, w', -, ht⟩ := mem_after ht
  exact h value w' t ht

/-- The evaluation of a part over which nothing is bound. -/
theorem eval_isAtPart {e : Expr} (h : ([], e) ∈ code) :
  Activation.IsAtPart code scope (.eval c scope e)
  := .same rfl (List.cons_subset.mpr ⟨h, List.nil_subset _⟩)

/-- A look at a part is at the part. -/
theorem lookAt_isAtPart {e : Expr} (h : ([], e) ∈ code) :
  Activation.IsAtPart code scope (.lookAt c scope e)
  := .same rfl (List.cons_subset.mpr ⟨h, List.nil_subset _⟩)

theorem takenCalls_atPart {other taken : Expr} (hother : ([], other) ∈ code)
    (htaken : ([], taken) ∈ code) :
  AllAtPart code scope (takenCalls fuel c scope other taken w)
  := by
  apply AllAtPart.cons (lookAt_isAtPart hother)
  apply AllAtPart.after fun _ _ => ?_
  exact .single (eval_isAtPart htaken)

/-- A direct part over which nothing is bound. -/
theorem mem_scopedParts_plain {e part : Expr} (he : e.scopedParts = e.children.map ([], ·))
    (hpart : part ∈ e.children) :
  ([], part) ∈ e.scopedParts
  := by
  rw [he]
  exact List.mem_map_of_mem hpart

/-- A conditional calls for its parts in its scope. -/
theorem conditional_atPart {id : NodeId} {condition thenCase elseCase : Expr} :
  AllAtPart (Expr.conditional id condition thenCase elseCase).scopedParts scope
    (nodeCalls fuel c scope w (.conditional id condition thenCase elseCase))
  := by
  have hcondition :
      ([], condition) ∈ (Expr.conditional id condition thenCase elseCase).scopedParts :=
    mem_scopedParts_plain rfl (by simp [Expr.children])
  have hthen : ([], thenCase) ∈ (Expr.conditional id condition thenCase elseCase).scopedParts :=
    mem_scopedParts_plain rfl (by simp [Expr.children])
  have helse : ([], elseCase) ∈ (Expr.conditional id condition thenCase elseCase).scopedParts :=
    mem_scopedParts_plain rfl (by simp [Expr.children])
  apply AllAtPart.cons (eval_isAtPart hcondition)
  apply AllAtPart.after fun condition _ => ?_
  split
  · exact takenCalls_atPart hthen helse
  · exact takenCalls_atPart hthen helse
  · split
    · apply AllAtPart.cons (lookAt_isAtPart hthen)
      apply AllAtPart.after fun _ _ => ?_
      exact .single (lookAt_isAtPart helse)
    · apply AllAtPart.cons (eval_isAtPart hthen)
      apply AllAtPart.after fun _ _ => ?_
      exact .single (lookAt_isAtPart helse)

/-- The evaluation of a node calls for its parts, each in the scope with the names bound
over it. -/
theorem nodeCalls_atPart (e : Expr) :
  AllAtPart e.scopedParts scope (nodeCalls fuel c scope w e)
  := by
  cases e with
  | blank | integer | float | bool | null | string | character | functionValue
  | «variable» | lambda => exact .nil
  | list id items => exact .single (.same rfl (List.Subset.refl _))
  | record id fields =>
    refine .single (.same rfl ?_)
    simp [Activation.code, Expr.scopedParts, Expr.children, Function.comp_def]
  | fieldAccess id object field =>
    exact .single (eval_isAtPart (mem_scopedParts_plain rfl List.mem_cons_self))
  | conditional id condition thenCase elseCase => exact conditional_atPart
  | letIn id name value body =>
    apply AllAtPart.cons (eval_isAtPart List.mem_cons_self)
    apply AllAtPart.after fun result _ => ?_
    by_cases hrail : result.isErrorRail = true
    · rw [if_pos hrail]
      exact .nil
    · rw [if_neg hrail]
      refine .single (.under rfl rfl (List.mem_cons_of_mem _ List.mem_cons_self) ?_)
      intro other hother
      split
      · rfl
      · next hname =>
        rw [if_neg hname, List.mem_singleton] at hother
        rw [Fields.get?_insert, if_neg (Ne.symm hother)]
  | featureFlag id condition oldCode newCode =>
    have hold : ([], oldCode) ∈ (Expr.featureFlag id condition oldCode newCode).scopedParts :=
      mem_scopedParts_plain rfl (by simp [Expr.children])
    have hnew : ([], newCode) ∈ (Expr.featureFlag id condition oldCode newCode).scopedParts :=
      mem_scopedParts_plain rfl (by simp [Expr.children])
    apply AllAtPart.cons (eval_isAtPart (mem_scopedParts_plain rfl List.mem_cons_self))
    apply AllAtPart.after fun condition _ => ?_
    split
    · exact takenCalls_atPart hold hnew
    · exact takenCalls_atPart hnew hold
  | constructor id name args =>
    rcases constructor_calls with hcalls | ⟨arg, harg, hcalls⟩
    · rw [hcalls]
      exact .nil
    · rw [hcalls]
      exact .single (eval_isAtPart (mem_scopedParts_plain rfl harg))
  | matchCases id scrutinee cases =>
    apply AllAtPart.cons (eval_isAtPart List.mem_cons_self)
    apply AllAtPart.after fun value _ => ?_
    exact .single (.same rfl (List.subset_cons_self _ _))
  | apply id callee args position railUse =>
    apply AllAtPart.cons (eval_isAtPart (mem_scopedParts_plain rfl List.mem_cons_self))
    apply AllAtPart.after fun callee _ => ?_
    apply AllAtPart.cons (.same rfl ?_)
    · apply AllAtPart.after fun values _ => ?_
      exact .single (.elsewhere rfl)
    · intro part hpart
      obtain ⟨arg, harg, rfl⟩ := List.mem_map.mp hpart
      exact mem_scopedParts_plain rfl (List.mem_cons_of_mem _ harg)

/-- The cases of a match call for the bodies, each with its bindings. -/
theorem evalCases_atPart {value : Value} {cases : List (Pattern × Expr)}
    {chosen : Option Value} :
  AllAtPart (Activation.evalCases c scope value cases chosen).code scope
    (callsOf fuel w (.evalCases c scope value cases chosen))
  := by
  cases cases with
  | nil => exact .nil
  | cons case rest =>
    obtain ⟨pattern, body⟩ := case
    have hbody : (pattern.boundNames, body)
        ∈ (Activation.evalCases c scope value ((pattern, body) :: rest) chosen).code :=
      List.mem_cons_self
    have hrest (chosen' : Option Value) : Activation.IsAtPart
        (Activation.evalCases c scope value ((pattern, body) :: rest) chosen).code scope
        (.evalCases c scope value rest chosen') :=
      .same rfl (List.subset_cons_self _ _)
    rw [callsOf]
    split
    · apply AllAtPart.cons (.under rfl rfl hbody fun _ => Matching.get?_extend_check)
      apply AllAtPart.after fun _ _ => ?_
      apply AllAtPart.after fun _ _ => ?_
      exact .single (hrest _)
    · apply AllAtPart.cons (.under rfl rfl hbody fun _ => Matching.get?_extend_check)
      apply AllAtPart.after fun _ _ => ?_
      apply AllAtPart.after fun _ _ => ?_
      exact .single (hrest _)

/-- What a function at work in code calls is at work in parts of the code, or elsewhere. -/
theorem callsOf_atPart (hscope : activation.scope? = some scope) :
  AllAtPart activation.handed scope (callsOf fuel w activation)
  := by
  cases activation with
  | applyValue | applyCallable | call | carryOut | carryOutBody | carryOutBuiltin
  | runSteps => cases hscope
  | eval c scope e =>
    cases hscope
    exact .single (.same rfl (List.Subset.refl _))
  | lookAt c scope e =>
    cases hscope
    exact .single (.same rfl (List.Subset.refl _))
  | evalNode c scope e =>
    cases hscope
    exact nodeCalls_atPart e
  | evalArgs c scope es =>
    cases hscope
    cases es with
    | nil => exact .nil
    | cons e rest =>
      apply AllAtPart.cons (eval_isAtPart List.mem_cons_self)
      apply AllAtPart.after fun _ _ => ?_
      exact .single (.same rfl (List.subset_cons_self _ _))
  | evalItems c scope es =>
    cases hscope
    cases es with
    | nil => exact .nil
    | cons e rest =>
      apply AllAtPart.cons (eval_isAtPart List.mem_cons_self)
      apply AllAtPart.after fun value _ => ?_
      split
      · exact .nil
      · exact .single (.same rfl (List.subset_cons_self _ _))
  | evalFields c scope fields =>
    cases hscope
    cases fields with
    | nil => exact .nil
    | cons field rest =>
      obtain ⟨name, e⟩ := field
      rw [callsOf]
      split
      · exact .single (.same rfl (List.subset_cons_self _ _))
      · apply AllAtPart.cons (eval_isAtPart List.mem_cons_self)
        apply AllAtPart.after fun _ _ => ?_
        exact .single (.same rfl (List.subset_cons_self _ _))
  | evalCases c scope value cases chosen =>
    cases hscope
    exact evalCases_atPart

end Frame

/-! ### Look-up -/

namespace Activation

/-- Whether a function finds something for a variable at a node, if it comes upon the node:
that occurs free in the code, once, and the variable is so in scope. -/
def LooksUp (name : String) (i : NodeId) (found : Option Value) (activation : Activation) :
    Prop :=
  ∀ scope, activation.scope? = some scope → ∀ part ∈ activation.code, i ∈ part.2.ids →
    part.2.ids.Nodup ∧ name ∉ part.1 ∧ part.2.OccursFree name i
      ∧ Fields.get? name scope = found

variable {name : String} {i : NodeId} {found : Option Value} {activation next : Activation}

/-- What is found in code is found in the code that is handed on. -/
theorem LooksUp.of_handed (h : activation.LooksUp name i found) {scope : Scope}
    (hscope : activation.scope? = some scope) {part : List String × Expr}
    (hpart : part ∈ activation.handed) (hi : i ∈ part.2.ids) :
  part.2.ids.Nodup ∧ name ∉ part.1 ∧ part.2.OccursFree name i
    ∧ Fields.get? name scope = found
  := by
  cases activation with
  | evalNode c scope' e =>
    have he : i ∈ e.ids := Expr.ids_of_part hpart hi
    obtain ⟨hnodup, -, hfree, hfound⟩ := h scope hscope ([], e) List.mem_cons_self he
    obtain ⟨hname, hfree⟩ := hfree.of_part hnodup hpart hi
    exact ⟨(Expr.nodup_scopedParts hnodup).1 part hpart, hname, hfree, hfound⟩
  | _ => exact h scope hscope part hpart hi

/-- What is found in code is found in parts of it. -/
theorem LooksUp.atPart (h : activation.LooksUp name i found) {scope : Scope}
    (hscope : activation.scope? = some scope) (hnext : next.IsAtPart activation.handed scope) :
  next.LooksUp name i found
  := by
  intro inner hinner part hpart hi
  obtain ⟨names, hnames, hagree⟩ := hnext inner hinner part hpart
  obtain ⟨hnodup, hname, hfree, hfound⟩ := h.of_handed hscope hnames hi
  obtain ⟨hpart, hsame⟩ := hagree name hname
  exact ⟨hnodup, hpart, hfree, hsame.trans hfound⟩

/-- What a variable finds is what its scope has. -/
theorem LooksUp.variable {c : Context} {scope : Scope}
    (h : LooksUp name i found (.evalNode c scope (.variable i name))) :
  Fields.get? name scope = found
  := (h scope rfl _ List.mem_cons_self (Expr.self_mem_ids _)).2.2.2

/-- The body of a lambda is at work with what was in scope where the lambda stands. -/
theorem applied_atPart {c c' : Context} {scope : Scope} {id : NodeId}
    {parameters : List (NodeId × String)} {body : Expr} {args : List Value} :
  IsAtPart (handed (.evalNode c scope (.lambda id parameters body))) scope
    (.eval c' (Fields.extend scope ((parameters.map Prod.snd).zip args)) body)
  := by
  refine .under rfl rfl List.mem_cons_self fun name hname => ?_
  apply Fields.get?_extend_of_not_mem
  intro hmem
  obtain ⟨pair, hpair, rfl⟩ := List.mem_map.mp hmem
  exact hname (List.of_mem_zip hpair).1

end Activation

namespace Frame

/-- Whether a frame is another, or at work in its code: called from there, or evaluating
the body of a lambda that stands there, whoever applies it in preview. -/
inductive Enters : Frame → Frame → Prop where
  | refl (s : Frame) : Enters s s
  | call {s t u : Frame} (hcode : s.activation.scope?.isSome = true) (h : t ∈ s.calls)
      (henters : Enters t u) : Enters s u
  | applied {s t u : Frame} {c c' : Context} {scope : Scope} {id : NodeId}
      {parameters : List (NodeId × String)} {body : Expr} {args : List Value}
      (hs : s.activation = .evalNode c scope (.lambda id parameters body))
      (ht : t.activation
        = .eval c' (Fields.extend scope ((parameters.map Prod.snd).zip args)) body)
      (hmode : c'.mode = .preview) (henters : Enters t u) : Enters s u

/-- What is found in code is found wherever a frame is at work in it. -/
theorem Enters.looksUp {name : String} {i : NodeId} {found : Option Value} {s t : Frame}
    (h : s.Enters t) (hs : s.activation.LooksUp name i found) :
  t.activation.LooksUp name i found
  := by
  induction h with
  | refl => exact hs
  | @call s t u hcode hcall _ ih =>
    obtain ⟨scope, hscope⟩ := Option.isSome_iff_exists.mp hcode
    obtain ⟨_ | fuel, activation, w⟩ := s
    · cases hcall
    · exact ih (hs.atPart hscope (callsOf_atPart hscope t hcall))
  | applied hs' ht _ _ ih =>
    rw [hs'] at hs
    apply ih
    rw [ht]
    exact hs.atPart rfl Activation.applied_atPart

/-- Code that is entered from a preview is evaluated in preview. -/
theorem Enters.mode {s t : Frame} (h : s.Enters t) (hs : s.context.mode = .preview) :
  t.context.mode = .preview
  := by
  induction h with
  | refl => exact hs
  | call _ hcall _ ih => exact ih ((descends_of_mem_calls hcall).2.mode hs)
  | applied _ ht hmode _ ih =>
    apply ih
    rw [context, ht]
    exact hmode

end Frame

/-- In preview, a variable that is not in scope is a hole. -/
theorem evalNode_variable_of_preview {fuel : Nat} {c : Context} {scope : Scope} {i : NodeId}
    {name : String} {w : World} (hc : c.mode = .preview) :
  evalNode (fuel + 1) c scope (.variable i name) w
    = (.done ((Fields.get? name scope).getD (.incomplete (c.source i))), w)
  := by
  simp only [evalNode]
  cases Fields.get? name scope with
  | some value => rfl
  | none =>
    have hhole : c.mode.unboundIsIncomplete = true := by rw [hc]; rfl
    simp only [if_pos hhole]
    rfl

/-- The body of a case whose pattern fails is looked at with the variables of the match: a
free occurrence of a variable, whether or not the pattern has one of that name, is what the
variable is around the match, and a hole only if there is none. -/
theorem evalNode_variable_of_not_isMatch {fuel : Nat} {c : Context} {scope : Scope}
    {value : Value} {pattern : Pattern} {body : Expr} {rest : List (Pattern × Expr)}
    {chosen : Option Value} {w : World} (hpattern : ¬ pattern.IsMatch value)
    (hnodup : body.ids.Nodup) :
  ∃ preview ∈ Frame.calls
      ⟨fuel + 1, .evalCases c scope value ((pattern, body) :: rest) chosen, w⟩,
    preview.activation = .lookAt c scope body
      ∧ ∀ name i, body.OccursFree name i → ∀ t, preview.Enters t →
        ∀ c' inner, t.activation = .evalNode c' inner (.variable i name) →
          ∀ fuel' w', evalNode (fuel' + 1) c' inner (.variable i name) w'
            = (.done ((Fields.get? name scope).getD (.incomplete (c'.source i))), w')
  := by
  have hpassed :
      ¬ (chosen.isNone && (Matching.check c.toplevel value pattern).matched) = true := by
    rw [Bool.and_eq_true, ← Pattern.isMatch_iff_check]
    exact fun h => hpattern h.2
  refine ⟨⟨fuel, .lookAt c scope body, w⟩, ?_, rfl, ?_⟩
  · rw [Frame.calls, Frame.callsOf, if_neg hpassed,
      Pattern.extend_check_of_not_isMatch hpattern]
    exact List.mem_cons_self
  · intro name i hfree t henters c' inner ht fuel' w'
    have hlooks :
        (Activation.lookAt c scope body).LooksUp name i (Fields.get? name scope) := by
      rintro _ ⟨⟩ part hpart -
      obtain rfl := List.mem_singleton.mp hpart
      exact ⟨hnodup, List.not_mem_nil, hfree, rfl⟩
    have hfound := henters.looksUp hlooks
    have hmode := henters.mode rfl
    rw [ht] at hfound
    rw [Frame.context, ht, Activation.context] at hmode
    rw [evalNode_variable_of_preview hmode, hfound.variable]

/-- The pattern of a payload under a variable. -/
def justX : Pattern :=
  .constructor 5 "Just" [.variable 6 "x"]

/-- A match of nothing with the pattern of a payload, whose body is the payload. -/
def shadowing : Expr :=
  .matchCases 3 (.constructor 4 "Nothing" []) [(justX, .variable 7 "x")]

/-- The context of a program without functions. -/
def bare : Context :=
  .start .real 1 0 [] []

theorem evalNode_variable_shadowing :
  ¬ justX.IsMatch .nothing ∧ (Expr.variable 7 "x").ids.Nodup
    ∧ ∃ preview ∈ Frame.calls ⟨3, .evalCases bare [("x", .int 5)] .nothing
        [(justX, .variable 7 "x")] none, .fresh ⟨0, 0⟩⟩,
      ∃ t, preview.Enters t
        ∧ t.activation = .evalNode bare.lookAside [("x", .int 5)] (.variable 7 "x")
        ∧ ∀ w, evalNode 1 bare.lookAside [("x", .int 5)] (.variable 7 "x") w
          = (.done (.int 5), w)
  := by
  have hpattern : ¬ justX.IsMatch .nothing := by
    rintro ⟨_, ⟨⟩⟩
  have hnodup : (Expr.variable 7 "x").ids.Nodup := by decide
  obtain ⟨⟨fuel, activation, w⟩, hpreview, rfl, h⟩ :=
    @evalNode_variable_of_not_isMatch 2 bare [("x", .int 5)] .nothing justX (.variable 7 "x") []
      none (.fresh ⟨0, 0⟩) hpattern hnodup
  obtain rfl : fuel = 2 := Nat.succ.inj (Frame.descends_of_mem_calls hpreview).1
  refine ⟨hpattern, hnodup, _, hpreview, ⟨0, .evalNode _ _ _, w⟩, ?_, rfl, ?_⟩
  · exact .call rfl List.mem_cons_self (.call rfl List.mem_cons_self (.refl _))
  · apply h "x" 7 .here ⟨0, .evalNode _ _ _, w⟩ _ _ _ rfl
    exact .call rfl List.mem_cons_self (.call rfl List.mem_cons_self (.refl _))

/-- A variable of a pattern that fails shows, in the preview of its body, the value of the
variable of the same name around the match, though all nodes are distinct. -/
theorem live_shadowing :
  ¬ justX.IsMatch .nothing ∧ "x" ∈ justX.boundNames ∧ shadowing.ids.Nodup
    ∧ (Expr.variable 7 "x").OccursFree "x" 7
    ∧ ∃ w' m, eval 10 bare [("x", .int 5)] shadowing (.fresh ⟨0, 0⟩)
        = (.done (.incomplete (.node 0 3)), w')
      ∧ w'.store = .memory m ∧ Assoc.get? 7 m.live = some ⟨.int 5, false⟩
  := by
  refine ⟨?_, by decide, by decide, .here, _, _, rfl, rfl, rfl⟩
  rintro ⟨_, ⟨⟩⟩

end Interpreter

end LiveExpr
