import LiveExpr.Proofs.Frames
import LiveExpr.Proofs.Parts

/-!
# The weight of code

What evaluates code calls what evaluates less code, with the same calls under way, or it
applies a value. So an infinite chain of calls applies values again and again. Main
statement: `callsOf_lighter`.
-/

namespace LiveExpr.Interpreter

namespace Activation

/-- Whether a function of the interpreter evaluates code. -/
def isCode : Activation → Bool
  | eval _ _ _ | lookAt _ _ _ | evalNode _ _ _ | evalArgs _ _ _ | evalItems _ _ _
  | evalFields _ _ _ | evalCases _ _ _ _ _ => true
  | _ => false

/-- The weight of the code that is evaluated. A node is lighter than its evaluation, which
is lighter than a look at it. -/
noncomputable def weight : Activation → Nat
  | evalNode _ _ e => 3 * sizeOf e
  | eval _ _ e => 3 * sizeOf e + 1
  | lookAt _ _ e => 3 * sizeOf e + 2
  | evalArgs _ _ es | evalItems _ _ es => 3 * sizeOf es
  | evalFields _ _ fields => 3 * sizeOf fields
  | evalCases _ _ _ cases _ => 3 * sizeOf cases
  | _ => 0

/-- Whether a function of the interpreter evaluates code of less weight, or applies a
value, with the same calls under way. -/
inductive IsLighter (stack : CallStack) (n : Nat) : Activation → Prop where
  | code {activation : Activation} (hcode : activation.isCode = true)
      (hstack : activation.context.stack = stack) (hweight : activation.weight < n) :
    IsLighter stack n activation
  | apply {c : Context} {id : NodeId} {callee : Value} {args : List Value}
      {position : PipePosition} {railUse : RailUse} (hstack : c.stack = stack) :
    IsLighter stack n (.applyValue c id callee args position railUse)

end Activation

open Activation (IsLighter)
open Interpreter.Frame (takenCalls nodeCalls callsOf)

/-- Whether all calls are to functions of the interpreter with less to do. -/
def AllLighter (stack : CallStack) (n : Nat) (calls : List Frame) : Prop :=
  ∀ t ∈ calls, t.activation.IsLighter stack n

variable {fuel : Nat} {c : Context} {scope : Scope} {w : World} {n : Nat} {stack : CallStack}

namespace AllLighter

theorem nil :
  AllLighter stack n []
  := List.forall_mem_nil _

theorem cons {activation : Activation} {calls : List Frame}
    (h : activation.IsLighter stack n) (hcalls : AllLighter stack n calls) :
  AllLighter stack n (⟨fuel, activation, w⟩ :: calls)
  := List.forall_mem_cons.mpr ⟨h, hcalls⟩

theorem single {activation : Activation} (h : activation.IsLighter stack n) :
  AllLighter stack n [⟨fuel, activation, w⟩]
  := cons h nil

theorem after {α : Type} {run : Run α} {next : α → World → List Frame}
    (h : ∀ value w', AllLighter stack n (next value w')) :
  AllLighter stack n (Frame.after run w next)
  := by
  intro t ht
  obtain ⟨value, w', -, ht⟩ := Frame.mem_after ht
  exact h value w' t ht

end AllLighter

theorem isLighter_eval {e child : Expr} (h : child ∈ e.children) :
  IsLighter c.stack (3 * sizeOf e) (.eval c scope child)
  := by
  have hsize := Expr.sizeOf_child_lt h
  refine .code rfl rfl ?_
  rw [Activation.weight]
  omega

theorem isLighter_lookAt {e child : Expr} (h : child ∈ e.children) :
  IsLighter c.stack (3 * sizeOf e) (.lookAt c scope child)
  := by
  have hsize := Expr.sizeOf_child_lt h
  refine .code rfl rfl ?_
  rw [Activation.weight]
  omega

theorem takenCalls_lighter {e other taken : Expr} (hother : other ∈ e.children)
    (htaken : taken ∈ e.children) :
  AllLighter c.stack (3 * sizeOf e) (takenCalls fuel c scope other taken w)
  := by
  apply AllLighter.cons (isLighter_lookAt hother)
  apply AllLighter.after
  intro _ _
  apply AllLighter.single (isLighter_eval htaken)

/-- The calls of a node evaluate parts of it, or apply what its callee is. -/
theorem nodeCalls_lighter (e : Expr) :
  AllLighter c.stack (3 * sizeOf e) (nodeCalls fuel c scope w e)
  := by
  cases e with
  | blank | integer | float | bool | null | string | character | functionValue
  | «variable» | lambda => apply AllLighter.nil
  | list id items =>
    apply AllLighter.single (.code rfl rfl _)
    simp only [Activation.weight, Expr.list.sizeOf_spec]
    omega
  | record id fields =>
    apply AllLighter.single (.code rfl rfl _)
    simp only [Activation.weight, Expr.record.sizeOf_spec]
    omega
  | fieldAccess id object field =>
    apply AllLighter.single (isLighter_eval List.mem_cons_self)
  | letIn id name value body =>
    apply AllLighter.cons (isLighter_eval List.mem_cons_self)
    apply AllLighter.after
    intro _ _
    split
    · apply AllLighter.nil
    · apply AllLighter.single (isLighter_eval (by simp [Expr.children]))
  | conditional id condition thenCase elseCase =>
    have hthen : thenCase ∈ (Expr.conditional id condition thenCase elseCase).children := by
      simp [Expr.children]
    have helse : elseCase ∈ (Expr.conditional id condition thenCase elseCase).children := by
      simp [Expr.children]
    apply AllLighter.cons (isLighter_eval List.mem_cons_self)
    apply AllLighter.after
    intro _ _
    split
    · apply takenCalls_lighter hthen helse
    · apply takenCalls_lighter hthen helse
    · split
      · apply AllLighter.cons (isLighter_lookAt hthen)
        apply AllLighter.after
        intro _ _
        apply AllLighter.single (isLighter_lookAt helse)
      · apply AllLighter.cons (isLighter_eval hthen)
        apply AllLighter.after
        intro _ _
        apply AllLighter.single (isLighter_lookAt helse)
  | featureFlag id condition oldCode newCode =>
    have hold : oldCode ∈ (Expr.featureFlag id condition oldCode newCode).children := by
      simp [Expr.children]
    have hnew : newCode ∈ (Expr.featureFlag id condition oldCode newCode).children := by
      simp [Expr.children]
    apply AllLighter.cons (isLighter_eval List.mem_cons_self)
    apply AllLighter.after
    intro _ _
    split
    · apply takenCalls_lighter hold hnew
    · apply takenCalls_lighter hnew hold
  | constructor id name args =>
    rcases Frame.constructor_calls with hcalls | ⟨arg, harg, hcalls⟩
    · rw [hcalls]
      apply AllLighter.nil
    · rw [hcalls]
      apply AllLighter.single (isLighter_eval harg)
  | matchCases id scrutinee cases =>
    apply AllLighter.cons (isLighter_eval List.mem_cons_self)
    apply AllLighter.after
    intro _ _
    apply AllLighter.single (.code rfl rfl _)
    simp only [Activation.weight, Expr.matchCases.sizeOf_spec]
    omega
  | apply id callee args position railUse =>
    apply AllLighter.cons (isLighter_eval List.mem_cons_self)
    apply AllLighter.after
    intro _ _
    apply AllLighter.cons
    · refine .code rfl rfl ?_
      simp only [Activation.weight, Expr.apply.sizeOf_spec]
      omega
    · apply AllLighter.after
      intro _ _
      apply AllLighter.single (.apply rfl)

/-- What evaluates code calls what evaluates less code, or what applies a value. -/
theorem callsOf_lighter {activation : Activation} (hcode : activation.isCode = true) :
  AllLighter activation.context.stack activation.weight (callsOf fuel w activation)
  := by
  cases activation with
  | eval c scope e =>
    apply AllLighter.single (.code rfl rfl _)
    simp only [Activation.weight]
    omega
  | lookAt c scope e =>
    apply AllLighter.single (.code rfl rfl _)
    simp only [Activation.weight]
    omega
  | evalNode c scope e => apply nodeCalls_lighter
  | evalArgs c scope es =>
    cases es with
    | nil => apply AllLighter.nil
    | cons e rest =>
      apply AllLighter.cons (.code rfl rfl _)
      · apply AllLighter.after
        intro _ _
        apply AllLighter.single (.code rfl rfl _)
        simp only [Activation.weight, List.cons.sizeOf_spec]
        omega
      · simp only [Activation.weight, List.cons.sizeOf_spec]
        omega
  | evalItems c scope es =>
    cases es with
    | nil => apply AllLighter.nil
    | cons e rest =>
      apply AllLighter.cons (.code rfl rfl _)
      · apply AllLighter.after
        intro _ _
        split
        · apply AllLighter.nil
        · apply AllLighter.single (.code rfl rfl _)
          simp only [Activation.weight, List.cons.sizeOf_spec]
          omega
      · simp only [Activation.weight, List.cons.sizeOf_spec]
        omega
  | evalFields c scope fields =>
    cases fields with
    | nil => apply AllLighter.nil
    | cons field rest =>
      obtain ⟨name, e⟩ := field
      have hrest : ∀ w, AllLighter c.stack (3 * sizeOf ((name, e) :: rest))
          [⟨fuel, .evalFields c scope rest, w⟩] := by
        intro w
        apply AllLighter.single (.code rfl rfl _)
        simp only [Activation.weight, List.cons.sizeOf_spec, Prod.mk.sizeOf_spec]
        omega
      rw [callsOf]
      split
      · apply hrest
      · apply AllLighter.cons (.code rfl rfl _)
        · apply AllLighter.after
          intro _ w'
          apply hrest
        · simp only [Activation.weight, List.cons.sizeOf_spec, Prod.mk.sizeOf_spec]
          omega
  | evalCases c scope value cases chosen =>
    cases cases with
    | nil => apply AllLighter.nil
    | cons case rest =>
      obtain ⟨pattern, body⟩ := case
      have hrest : ∀ chosen w, AllLighter c.stack (3 * sizeOf ((pattern, body) :: rest))
          [⟨fuel, .evalCases c scope value rest chosen, w⟩] := by
        intro chosen w
        apply AllLighter.single (.code rfl rfl _)
        simp only [Activation.weight, List.cons.sizeOf_spec, Prod.mk.sizeOf_spec]
        omega
      rw [callsOf]
      split
      · apply AllLighter.cons (.code rfl rfl _)
        · apply AllLighter.after
          intro _ _
          apply AllLighter.after
          intro _ _
          apply hrest
        · simp only [Activation.weight, List.cons.sizeOf_spec, Prod.mk.sizeOf_spec]
          omega
      · apply AllLighter.cons (.code rfl rfl _)
        · apply AllLighter.after
          intro _ _
          apply AllLighter.after
          intro _ _
          apply hrest
        · simp only [Activation.weight, List.cons.sizeOf_spec, Prod.mk.sizeOf_spec]
          omega
  | _ => cases hcode

end LiveExpr.Interpreter
