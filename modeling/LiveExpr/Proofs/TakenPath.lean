import LiveExpr.Proofs.Cases
import LiveExpr.Proofs.Places
import Mathlib.Data.List.Nodup
import Mathlib.Data.List.Pairwise

/-!
# The path that is taken

Which nodes of an expression lie on the path of execution, given the values of its nodes:
the expression does, and from a node that does, its strict parts and the branch that the
value of its condition chooses. Evaluation of code with distinct nodes is on the path of
execution exactly at those. Main statement: `callsOf_areOn`, which carries this from a
function of the interpreter to those that it calls.
-/

namespace LiveExpr

open Interpreter (IsFirstMatch)

namespace Expr

/-- The direct parts of an expression that belong to the path of execution if it does. -/
def strictParts : Expr → List Expr
  | .conditional _ condition _ _ => [condition]
  | .matchCases _ scrutinee _ => [scrutinee]
  | .featureFlag _ condition _ _ => [condition]
  | .lambda _ _ _ => []
  | e => e.children

/-- Whether the path of execution leads from an expression to a direct part of it, given
the values of expressions. -/
inductive LeadsTo (valued : Expr → Value → Prop) : Expr → Expr → Prop where
  | strict {e part : Expr} (hpart : part ∈ e.strictParts) : LeadsTo valued e part
  | thenCase {id : NodeId} {condition thenCase elseCase : Expr} {value : Value}
      (hvalue : valued condition value) (hreal : value.isFake = false)
      (hfalse : value ≠ .bool false) (hnull : value ≠ .null) :
    LeadsTo valued (.conditional id condition thenCase elseCase) thenCase
  | elseCase {id : NodeId} {condition thenCase elseCase : Expr} {value : Value}
      (hvalue : valued condition value) (hfalse : value = .bool false ∨ value = .null) :
    LeadsTo valued (.conditional id condition thenCase elseCase) elseCase
  | case {id : NodeId} {scrutinee : Expr} {cases : List (Pattern × Expr)} {value : Value}
      {k : Nat} {pattern : Pattern} {body : Expr} (hvalue : valued scrutinee value)
      (hfirst : IsFirstMatch value cases k) (hcase : cases[k]? = some (pattern, body)) :
    LeadsTo valued (.matchCases id scrutinee cases) body
  | newCode {id : NodeId} {condition oldCode newCode : Expr}
      (hvalue : valued condition (.bool true)) :
    LeadsTo valued (.featureFlag id condition oldCode newCode) newCode
  | oldCode {id : NodeId} {condition oldCode newCode : Expr} {value : Value}
      (hvalue : valued condition value) (htrue : value ≠ .bool true) :
    LeadsTo valued (.featureFlag id condition oldCode newCode) oldCode

/-- Whether a node lies on the path of execution of an expression. -/
inductive IsOnPath (valued : Expr → Value → Prop) (root : Expr) : Expr → Prop where
  | root : IsOnPath valued root root
  | part {e part : Expr} (he : IsOnPath valued root e) (hpart : LeadsTo valued e part) :
    IsOnPath valued root part

/-! ### Nodes of an expression -/

variable {root e part other : Expr} {valued : Expr → Value → Prop}

/-- What is always evaluated is part of the expression. -/
theorem strictParts_subset (e : Expr) :
  e.strictParts ⊆ e.children
  := by
  cases e <;> simp [strictParts, children]

/-- An evaluation leads to parts of the expression only. -/
theorem LeadsTo.mem_children (h : LeadsTo valued e part) :
  part ∈ e.children
  := by
  cases h with
  | strict hpart => exact strictParts_subset e hpart
  | case _ _ hcase =>
    exact List.mem_cons_of_mem _ (List.mem_map_of_mem (List.mem_of_getElem? hcase))
  | _ => simp [children]

/-- A part of a part of the code is part of the code. -/
theorem mem_subterms_of_child (he : e ∈ root.subterms) (hpart : part ∈ e.children) :
  part ∈ root.subterms
  := by
  apply mem_subterms_trans he
  exact mem_subterms_iff.mpr (.inr ⟨part, hpart, mem_subterms_iff.mpr (.inl rfl)⟩)

/-- What is on the path is part of the code. -/
theorem IsOnPath.mem_subterms (h : IsOnPath valued root e) :
  e ∈ root.subterms
  := by
  induction h with
  | root => exact mem_subterms_iff.mpr (.inl rfl)
  | part _ hpart ih => exact mem_subterms_of_child ih hpart.mem_children

/-- What stands in an expression is the expression and the direct parts of all that stands
in it. -/
theorem subterms_perm (e : Expr) :
  e.subterms.Perm (e :: e.subterms.flatMap children)
  := by
  rw [← Multiset.coe_eq_coe, ← Multiset.cons_coe, ← Multiset.coe_bind]
  induction e using induction_children with
  | step e ih =>
    have hparts : (e.children : Multiset Expr).bind (fun part => (part.subterms : Multiset Expr))
        = e.children + (e.children : Multiset Expr).bind fun part =>
          (part.subterms : Multiset Expr).bind fun n => (n.children : Multiset Expr) := by
      rw [Multiset.bind_congr ih, Multiset.bind_cons, Multiset.map_id']
    rw [subterms_eq, ← Multiset.cons_coe, Multiset.cons_bind, ← Multiset.coe_bind,
      Multiset.bind_assoc, ← hparts]

/-- Where identifiers are distinct, so are the parts that they identify. -/
theorem nodup_subterms (h : root.ids.Nodup) :
  (root.subterms.map Expr.id).Nodup
  := by
  have hids : (root.ids : Multiset NodeId)
      = (root.subterms.map Expr.id : List NodeId)
        + (root.subterms : Multiset Expr).bind fun n => (n.marks : Multiset NodeId) := by
    rw [ids, ← Multiset.coe_bind, ← Multiset.map_coe, ← Multiset.bind_cons]
    simp [ownIds_eq]
  have hnodup := Multiset.coe_nodup.mpr h
  rw [hids] at hnodup
  exact Multiset.coe_nodup.mp (Multiset.nodup_add.mp hnodup).1

/-- In an expression with distinct nodes, each node but the expression itself is a direct
part of one node only, in one place only. -/
theorem nodup_children (h : root.ids.Nodup) :
  (∀ e ∈ root.subterms, root ∉ e.children ∧ e.children.Nodup)
    ∧ ∀ e ∈ root.subterms, ∀ other ∈ root.subterms, ∀ part ∈ e.children,
      part ∈ other.children → e = other
  := by
  have hnodup := (root.subterms_perm).nodup_iff.mp (nodup_subterms h).of_map
  obtain ⟨hroot, hparts⟩ := List.nodup_cons.mp hnodup
  obtain ⟨hchildren, hdisjoint⟩ := List.nodup_flatMap.mp hparts
  constructor
  · intro e he
    exact ⟨fun hmem => hroot (List.mem_flatMap.mpr ⟨e, he, hmem⟩), hchildren e he⟩
  · intro e he other hother part hpart hpart'
    by_contra hne
    have : Std.Symm fun e other : Expr => e.children.Disjoint other.children :=
      ⟨fun _ _ h _ hi hj => h hj hi⟩
    exact hdisjoint.forall he hother hne hpart hpart'

/-- A direct part of a node lies on the path if the node does and the path leads to the
part. -/
theorem isOnPath_part_iff (h : root.ids.Nodup) (he : e ∈ root.subterms)
    (hpart : part ∈ e.children) :
  IsOnPath valued root part ↔ IsOnPath valued root e ∧ LeadsTo valued e part
  := by
  obtain ⟨hchildren, hparent⟩ := nodup_children h
  constructor
  · intro honPath
    cases honPath with
    | root => exact absurd hpart (hchildren e he).1
    | part hother hleads =>
      obtain rfl := hparent _ hother.mem_subterms e he part hleads.mem_children hpart
      exact ⟨hother, hleads⟩
  · rintro ⟨honPath, hleads⟩
    exact .part honPath hleads

/-! ### Branches -/

section

variable {id : NodeId} {condition thenCase elseCase oldCode newCode scrutinee : Expr}
variable {cases : List (Pattern × Expr)} {value : Value}

/-- A condition that does not hold does not lead to the first branch. -/
theorem not_leadsTo_thenCase
    (hnodup : (Expr.conditional id condition thenCase elseCase).children.Nodup)
    (hvalue : ∀ other, valued condition other → other = value)
    (h : value.isFake = true ∨ value = .bool false ∨ value = .null) :
  ¬ LeadsTo valued (.conditional id condition thenCase elseCase) thenCase
  := by
  simp only [children, List.nodup_cons, List.mem_cons, List.not_mem_nil, or_false,
    not_or] at hnodup
  obtain ⟨⟨hcondition, -⟩, hbranches, -⟩ := hnodup
  intro hleads
  cases hleads with
  | strict hpart => exact hcondition (List.mem_singleton.mp hpart).symm
  | thenCase hother hreal hfalse hnull =>
    obtain rfl := hvalue _ hother
    rcases h with hfake | h | h
    · exact Bool.false_ne_true (hreal.symm.trans hfake)
    · exact hfalse h
    · exact hnull h
  | elseCase => exact hbranches rfl

/-- A condition that holds does not lead to the second branch. -/
theorem not_leadsTo_elseCase
    (hnodup : (Expr.conditional id condition thenCase elseCase).children.Nodup)
    (hvalue : ∀ other, valued condition other → other = value)
    (hfalse : value ≠ .bool false) (hnull : value ≠ .null) :
  ¬ LeadsTo valued (.conditional id condition thenCase elseCase) elseCase
  := by
  simp only [children, List.nodup_cons, List.mem_cons, List.not_mem_nil, or_false,
    not_or] at hnodup
  obtain ⟨⟨-, hcondition⟩, hbranches, -⟩ := hnodup
  intro hleads
  cases hleads with
  | strict hpart => exact hcondition (List.mem_singleton.mp hpart).symm
  | thenCase => exact hbranches rfl
  | elseCase hother h =>
    obtain rfl := hvalue _ hother
    exact h.elim hfalse hnull

/-- A feature flag that is not on does not lead to the new code. -/
theorem not_leadsTo_newCode
    (hnodup : (Expr.featureFlag id condition oldCode newCode).children.Nodup)
    (hvalue : ∀ other, valued condition other → other = value) (htrue : value ≠ .bool true) :
  ¬ LeadsTo valued (.featureFlag id condition oldCode newCode) newCode
  := by
  simp only [children, List.nodup_cons, List.mem_cons, List.not_mem_nil, or_false,
    not_or] at hnodup
  obtain ⟨⟨-, hcondition⟩, hbranches, -⟩ := hnodup
  intro hleads
  cases hleads with
  | strict hpart => exact hcondition (List.mem_singleton.mp hpart).symm
  | newCode hother => exact htrue (hvalue _ hother).symm
  | oldCode => exact hbranches rfl

/-- A feature flag that is on does not lead to the old code. -/
theorem not_leadsTo_oldCode
    (hnodup : (Expr.featureFlag id condition oldCode newCode).children.Nodup)
    (hvalue : ∀ other, valued condition other → other = .bool true) :
  ¬ LeadsTo valued (.featureFlag id condition oldCode newCode) oldCode
  := by
  simp only [children, List.nodup_cons, List.mem_cons, List.not_mem_nil, or_false,
    not_or] at hnodup
  obtain ⟨⟨hcondition, -⟩, hbranches, -⟩ := hnodup
  intro hleads
  cases hleads with
  | strict hpart => exact hcondition (List.mem_singleton.mp hpart).symm
  | newCode => exact hbranches rfl
  | oldCode hother htrue => exact htrue (hvalue _ hother)

/-- A match leads to the first case that its value matches, and to no other. -/
theorem leadsTo_case_iff (hnodup : (Expr.matchCases id scrutinee cases).children.Nodup)
    (hscrutinee : valued scrutinee value)
    (hvalue : ∀ other, valued scrutinee other → other = value) {k : Nat}
    {case : Pattern × Expr} (hcase : cases[k]? = some case) :
  LeadsTo valued (.matchCases id scrutinee cases) case.2 ↔ IsFirstMatch value cases k
  := by
  obtain ⟨hbodies, hnodup⟩ := List.nodup_cons.mp hnodup
  constructor
  · intro hleads
    generalize hbody : case.2 = body at hleads
    cases hleads with
    | strict hpart =>
      obtain rfl := List.mem_singleton.mp hpart
      exact absurd (hbody ▸ List.mem_map_of_mem (List.mem_of_getElem? hcase)) hbodies
    | @case _ _ _ _ j pattern _ hother hfirst hj =>
      obtain rfl := hvalue _ hother
      have hk : (cases.map Prod.snd)[k]? = some case.2 := by
        rw [List.getElem?_map, hcase]
        rfl
      have hj : (cases.map Prod.snd)[j]? = some case.2 := by
        rw [List.getElem?_map, hj, hbody]
        rfl
      have hlt : k < (cases.map Prod.snd).length := (List.getElem?_eq_some_iff.mp hk).1
      obtain rfl := (List.getElem?_inj hlt hnodup).mp (hk.trans hj.symm)
      exact hfirst
  · exact fun hfirst => .case hscrutinee hfirst hcase

end

end Expr

/-! ### Functions at work on the path -/

namespace Interpreter

open LiveExpr.Expr (IsOnPath LeadsTo isOnPath_part_iff nodup_children)
open Interpreter.Frame (after takenCalls nodeCalls callsOf)

/-- Whether a function is at work on the path of execution if its code is, and only then.
Of the cases of a match, the first whose pattern matches is on the path. -/
def Activation.IsOn (onPath : Expr → Prop) : Activation → Prop
  | eval c _ e | evalNode c _ e => c.onPath = true ↔ onPath e
  | lookAt _ _ e => ¬ onPath e
  | evalArgs c _ es | evalItems c _ es => ∀ e ∈ es, c.onPath = true ↔ onPath e
  | evalFields c _ fields => ∀ field ∈ fields, c.onPath = true ↔ onPath field.2
  | evalCases c _ value cases chosen => ∀ (k : Nat) (case : Pattern × Expr),
    cases[k]? = some case →
      (onPath case.2 ↔ c.onPath = true ∧ chosen = none ∧ IsFirstMatch value cases k)
  | _ => True

/-- Whether calls are on the path of execution if their code is, and only then. -/
def AreOn (onPath : Expr → Prop) (calls : List Frame) : Prop :=
  ∀ t ∈ calls, t.activation.IsOn onPath

variable {onPath : Expr → Prop} {fuel : Nat} {c : Context} {scope : Scope} {w : World}

namespace AreOn

theorem nil :
  AreOn onPath []
  := List.forall_mem_nil _

theorem cons {t : Frame} {calls : List Frame} (h : t.activation.IsOn onPath)
    (hcalls : AreOn onPath calls) :
  AreOn onPath (t :: calls)
  := List.forall_mem_cons.mpr ⟨h, hcalls⟩

theorem single {t : Frame} (h : t.activation.IsOn onPath) :
  AreOn onPath [t]
  := cons h nil

theorem after {α : Type} {run : Run α} {next : α → World → List Frame}
    (h : ∀ value w', AreOn onPath (next value w')) :
  AreOn onPath (Frame.after run w next)
  := by
  intro t ht
  obtain ⟨value, w', -, ht⟩ := Frame.mem_after ht
  exact h value w' t ht

theorem afterValue {α : Type} {run : Run α} {next : α → World → List Frame} {value : α}
    {w' : World} (hrun : run w = (.done value, w')) (h : AreOn onPath (next value w')) :
  AreOn onPath (Frame.after run w next)
  := by
  rw [Frame.after, hrun]
  exact h

end AreOn

/-- Of two branches the one that is taken is on the path, and the other is not. -/
theorem takenCalls_areOn {other taken : Expr} (hother : ¬ onPath other)
    (htaken : c.onPath = true ↔ onPath taken) :
  AreOn onPath (takenCalls fuel c scope other taken w)
  := .cons hother (.after fun _ _ => .single htaken)

section

variable {root e : Expr} {valued : Expr → Value → Prop}

/-- What the path of execution needs to know of a node that is evaluated: the code has
distinct nodes, the node is on the path if the context is, and the evaluations that it
starts give the values of expressions, which have one value each. -/
structure IsVisited (valued : Expr → Value → Prop) (root : Expr) (fuel : Nat) (c : Context)
    (scope : Scope) (w : World) (e : Expr) : Prop where
  distinct : root.ids.Nodup
  node : e ∈ root.subterms
  onPath : c.onPath = true ↔ IsOnPath valued root e
  gives : ∀ part, ⟨fuel, .eval c scope part, w⟩ ∈ nodeCalls fuel c scope w e →
    ∃ value w', eval fuel c scope part w = (.done value, w') ∧ valued part value
  unique : ∀ {part value other}, valued part value → valued part other → other = value

variable (h : IsVisited valued root fuel c scope w e)
include h

/-- What an evaluation on the path leads to is on the path. -/
theorem IsVisited.taken {part : Expr} (hleads : LeadsTo valued e part) :
  c.onPath = true ↔ IsOnPath valued root part
  := by
  rw [isOnPath_part_iff h.distinct h.node hleads.mem_children, h.onPath, and_iff_left hleads]

/-- What an evaluation on the path always evaluates is on the path. -/
theorem IsVisited.strict {part : Expr} (hpart : part ∈ e.strictParts) :
  c.onPath = true ↔ IsOnPath valued root part
  := h.taken (.strict hpart)

/-- What an evaluation does not lead to is not on the path. -/
theorem IsVisited.other {part : Expr} (hpart : part ∈ e.children)
    (hleads : ¬ LeadsTo valued e part) :
  ¬ IsOnPath valued root part
  := by
  rw [isOnPath_part_iff h.distinct h.node hpart]
  exact fun h => hleads h.2

theorem IsVisited.nodup :
  e.children.Nodup
  := ((nodup_children h.distinct).1 e h.node).2

end

section

variable {root : Expr} {valued : Expr → Value → Prop} {id : NodeId}

/-- The branches of a conditional are entered as the path says. -/
theorem conditional_areOn {condition thenCase elseCase : Expr}
    (h : IsVisited valued root fuel c scope w (.conditional id condition thenCase elseCase)) :
  AreOn (IsOnPath valued root)
    (nodeCalls fuel c scope w (.conditional id condition thenCase elseCase))
  := by
  obtain ⟨value, w', hrun, hvalue⟩ := h.gives condition List.mem_cons_self
  have hunique : ∀ other, valued condition other → other = value := fun _ => h.unique hvalue
  have hthen (hchoice : value.isFake = true ∨ value = .bool false ∨ value = .null) :
      ¬ IsOnPath valued root thenCase :=
    h.other (by simp [Expr.children]) (Expr.not_leadsTo_thenCase h.nodup hunique hchoice)
  have helse (hfalse : value ≠ .bool false) (hnull : value ≠ .null) :
      ¬ IsOnPath valued root elseCase :=
    h.other (by simp [Expr.children]) (Expr.not_leadsTo_elseCase h.nodup hunique hfalse hnull)
  refine AreOn.cons (h.strict List.mem_cons_self) ?_
  apply AreOn.afterValue hrun
  split
  · exact takenCalls_areOn (hthen (.inr (.inl rfl))) (h.taken (.elseCase hvalue (.inl rfl)))
  · exact takenCalls_areOn (hthen (.inr (.inr rfl))) (h.taken (.elseCase hvalue (.inr rfl)))
  · next hfalse hnull =>
    split
    · next hfake =>
      refine AreOn.cons (hthen (.inl hfake)) ?_
      apply AreOn.after
      exact fun _ _ => .single (helse hfalse hnull)
    · next hreal =>
      have hleads : LeadsTo valued (.conditional id condition thenCase elseCase) thenCase :=
        .thenCase hvalue (Bool.eq_false_iff.mpr hreal) hfalse hnull
      refine AreOn.cons (h.taken hleads) ?_
      apply AreOn.after
      exact fun _ _ => .single (helse hfalse hnull)

/-- The codes of a feature flag are entered as the path says. -/
theorem featureFlag_areOn {condition oldCode newCode : Expr}
    (h : IsVisited valued root fuel c scope w (.featureFlag id condition oldCode newCode)) :
  AreOn (IsOnPath valued root)
    (nodeCalls fuel c scope w (.featureFlag id condition oldCode newCode))
  := by
  obtain ⟨value, w', hrun, hvalue⟩ := h.gives condition List.mem_cons_self
  have hunique : ∀ other, valued condition other → other = value := fun _ => h.unique hvalue
  have hcaught : Run.caught (eval fuel c scope condition) w = (.done (.ok value), w') := by
    rw [Run.caught, hrun]
  refine AreOn.cons (h.strict List.mem_cons_self) ?_
  apply AreOn.afterValue hcaught
  split
  · next htrue =>
    obtain rfl := Except.ok.inj htrue
    apply takenCalls_areOn
    · exact h.other (by simp [Expr.children]) (Expr.not_leadsTo_oldCode h.nodup hunique)
    · exact h.taken (.newCode hvalue)
  · next htrue =>
    have htrue : value ≠ .bool true := fun heq => htrue (congrArg Except.ok heq)
    apply takenCalls_areOn
    · exact h.other (by simp [Expr.children]) (Expr.not_leadsTo_newCode h.nodup hunique htrue)
    · exact h.taken (.oldCode hvalue htrue)

/-- The cases of a match are entered as the path says. -/
theorem matchCases_areOn {scrutinee : Expr} {cases : List (Pattern × Expr)}
    (h : IsVisited valued root fuel c scope w (.matchCases id scrutinee cases)) :
  AreOn (IsOnPath valued root) (nodeCalls fuel c scope w (.matchCases id scrutinee cases))
  := by
  obtain ⟨value, w', hrun, hvalue⟩ := h.gives scrutinee List.mem_cons_self
  refine AreOn.cons (h.strict List.mem_cons_self) ?_
  apply AreOn.afterValue hrun
  apply AreOn.single
  intro k case hcase
  have hchild : case.2 ∈ (Expr.matchCases id scrutinee cases).children :=
    List.mem_cons_of_mem _ (List.mem_map_of_mem (List.mem_of_getElem? hcase))
  rw [isOnPath_part_iff h.distinct h.node hchild, ← h.onPath,
    Expr.leadsTo_case_iff h.nodup hvalue (fun _ => h.unique hvalue) hcase]
  simp

/-- What the evaluation of a node calls is entered as the path says, by cases on the node. -/
theorem nodeCalls_areOn {e : Expr} (h : IsVisited valued root fuel c scope w e) :
  AreOn (IsOnPath valued root) (nodeCalls fuel c scope w e)
  := by
  cases e with
  | blank | integer | float | bool | null | string | character | functionValue
  | «variable» | lambda => exact .nil
  | list id items => exact .single fun _ => h.strict
  | record id fields => exact .single fun _ hfield => h.strict (List.mem_map_of_mem hfield)
  | fieldAccess id object field => exact .single (h.strict List.mem_cons_self)
  | letIn id name value body =>
    refine AreOn.cons (h.strict List.mem_cons_self) ?_
    apply AreOn.after
    intro value w'
    split
    · exact .nil
    · exact .single (h.strict (by simp [Expr.strictParts, Expr.children]))
  | conditional id condition thenCase elseCase => exact conditional_areOn h
  | featureFlag id condition oldCode newCode => exact featureFlag_areOn h
  | constructor id name args =>
    rcases Frame.constructor_calls with hcalls | ⟨arg, harg, hcalls⟩
    · rw [hcalls]
      exact .nil
    · rw [hcalls]
      exact .single (h.strict harg)
  | matchCases id scrutinee cases => exact matchCases_areOn h
  | apply id callee args position railUse =>
    refine AreOn.cons (h.strict List.mem_cons_self) ?_
    apply AreOn.after
    intro callee w'
    refine AreOn.cons (fun _ harg => h.strict (List.mem_cons_of_mem _ harg)) ?_
    apply AreOn.after
    exact fun _ _ => .single trivial

end

/-- The cases of a match are entered as the path says, one after another. -/
theorem evalCases_areOn {value : Value} {cases : List (Pattern × Expr)}
    {chosen : Option Value}
    (h : Activation.IsOn onPath (.evalCases c scope value cases chosen)) :
  AreOn onPath (callsOf fuel w (.evalCases c scope value cases chosen))
  := by
  cases cases with
  | nil => exact .nil
  | cons case rest =>
    obtain ⟨pattern, body⟩ := case
    have hbody := h 0 (pattern, body) rfl
    have hrest (k : Nat) (case : Pattern × Expr) (hcase : rest[k]? = some case) :=
      h (k + 1) case hcase
    simp only [isFirstMatch_zero, Pattern.isMatch_iff_check c.toplevel] at hbody
    simp only [isFirstMatch_succ, Pattern.isMatch_iff_check c.toplevel] at hrest
    rw [callsOf]
    split
    · next htaken =>
      obtain ⟨hnone, hmatched⟩ := (Bool.and_eq_true _ _).mp htaken
      have hnone := Option.isNone_iff_eq_none.mp hnone
      have htaken : c.onPath = true ↔ onPath body := by
        rw [hbody, and_iff_left ⟨hnone, hmatched⟩]
      refine AreOn.cons htaken (.after fun result _ => .after fun _ _ => .single ?_)
      intro k case hcase
      rw [hrest k case hcase]
      simp [hmatched]
    · next hpassed =>
      have haside : chosen = none →
          ¬ (Matching.check c.toplevel value pattern).matched = true := by
        rintro rfl hmatched
        exact hpassed hmatched
      have hbody : ¬ onPath body := by
        rw [hbody]
        exact fun h => haside h.2.1 h.2.2
      refine AreOn.cons hbody (.after fun _ _ => .after fun _ _ => .single ?_)
      intro k case hcase
      rw [hrest k case hcase]
      constructor
      · exact fun h => ⟨h.1, h.2.1, h.2.2.2⟩
      · exact fun h => ⟨h.1, h.2.1, haside h.2.1, h.2.2⟩

/-! ### Runs -/

section

variable {registry : Registry} {root : Expr} {valued : Expr → Value → Prop}

theorem isOn_of_values {activation : Activation} (hcode : activation.isCode = false) :
  activation.IsOn onPath
  := by
  cases activation <;> trivial

/-- What is called is on the path of execution if its code is, and only then. -/
theorem callsOf_areOn {activation : Activation}
    (ha : (library registry root).Admits activation)
    (hon : activation.IsOn (IsOnPath valued root))
    (hvisited : ∀ c scope e, activation = .evalNode c scope e →
      IsVisited valued root fuel c scope w e) :
  AreOn (IsOnPath valued root) (callsOf fuel w activation)
  := by
  cases activation with
  | eval c scope e => exact .single hon
  | lookAt c scope e =>
    apply AreOn.single
    change c.lookAside.onPath = true ↔ _
    exact ⟨nofun, fun h => absurd h hon⟩
  | evalNode c scope e => exact nodeCalls_areOn (hvisited c scope e rfl)
  | evalArgs c scope es =>
    cases es with
    | nil => exact .nil
    | cons e rest =>
      obtain ⟨he, hrest⟩ := List.forall_mem_cons.mp hon
      exact .cons he (.after fun _ _ => .single hrest)
  | evalItems c scope es =>
    cases es with
    | nil => exact .nil
    | cons e rest =>
      obtain ⟨he, hrest⟩ := List.forall_mem_cons.mp hon
      refine .cons he (.after fun value w' => ?_)
      split
      · exact .nil
      · exact .single hrest
  | evalFields c scope fields =>
    cases fields with
    | nil => exact .nil
    | cons field rest =>
      obtain ⟨name, e⟩ := field
      obtain ⟨he, hrest⟩ := List.forall_mem_cons.mp hon
      rw [callsOf]
      split
      · exact .single hrest
      · exact .cons he (.after fun _ _ => .single hrest)
  | evalCases c scope value cases chosen => exact evalCases_areOn hon
  | _ => exact fun t ht => isOn_of_values (callsOf_values ha rfl t ht)

/-- What a frame reaches is on the path of execution if its code is, and only then. -/
theorem Frame.Reaches.isOn {s t : Frame} (h : s.Reaches t)
    (ha : (library registry root).Admits s.activation)
    (hw : (library registry root).world s.world) (hids : root.ids.Nodup)
    (hunique : ∀ e value other, valued e value → valued e other → other = value)
    (hgives : ∀ t c scope e, s.Reaches t → t.activation = .eval c scope e →
      ∃ value w', eval t.fuel c scope e t.world = (.done value, w') ∧ valued e value)
    (hon : s.activation.IsOn (IsOnPath valued root)) :
  t.activation.IsOn (IsOnPath valued root)
  := by
  induction h with
  | refl s => exact hon
  | @step s t u hcall _ ih =>
    obtain ⟨_ | fuel, activation, w⟩ := s
    · cases hcall
    · obtain ⟨ht, hw'⟩ :=
        callsOf_covered (library_isLawful.kept fuel) library_isLawful hw ha t hcall
      apply ih ht hw'
      · exact fun u c scope e hu => hgives u c scope e (.step hcall hu)
      · apply callsOf_areOn ha hon _ t hcall
        rintro c scope e rfl
        exact {
          distinct := hids
          node := ha.2.2.self.1
          onPath := hon
          gives := fun part hmem =>
            hgives ⟨fuel, .eval c scope part, w⟩ c scope part (.step hmem (.refl _)) rfl
          unique := hunique _ _ _ }

end

end Interpreter

end LiveExpr
