import LiveExpr.Proofs.Congruence

/-!
# Fuel

A run for which the fuel suffices does not depend on it: with more fuel it ends in the same
way.  The interpreter reads its fuel only to run out of it, so this is a congruence between
runs.  Main statements: `Activation.extends_of_le`, and `Evaluates.from_fuel`, which leaves
fuel out of evaluation.
-/

namespace LiveExpr

namespace Run

variable {α β : Type}

/-- Whether a run ends as another one does wherever that does not lack fuel. -/
def Extends (longer run : Run α) : Prop :=
  ∀ w, (run w).1 ≠ .outOfFuel → longer w = run w

theorem Extends.refl (run : Run α) :
  run.Extends run
  := fun _ _ => rfl

/-- Every run extends the one that lacks fuel. -/
theorem Extends.outOfFuel {longer : Run α} :
  longer.Extends outOfFuel
  := fun _ h => absurd rfl h

theorem Extends.bind {longer run : Run α} {longerNext next : α → Run β}
    (hrun : longer.Extends run) (hnext : ∀ value, (longerNext value).Extends (next value)) :
  Extends (longer >>= longerNext) (run >>= next)
  := by
  intro w h
  change (andThen run next w).1 ≠ .outOfFuel at h
  change andThen longer longerNext w = andThen run next w
  have hw := hrun w
  rw [andThen] at h ⊢
  rw [andThen]
  generalize run w = ending at h hw
  obtain ⟨_ | _ | _, w'⟩ := ending
  · rw [hw (by rintro ⟨⟩)]
    exact hnext _ w' h
  · rw [hw (by rintro ⟨⟩)]
  · exact absurd rfl h

theorem Extends.caught {longer run : Run α} (h : longer.Extends run) :
  (caught longer).Extends (caught run)
  := by
  intro w hw
  have hrun := h w
  unfold Run.caught at hw ⊢
  generalize run w = ending at hw hrun
  obtain ⟨_ | _ | _, w'⟩ := ending
  · rw [hrun (by rintro ⟨⟩)]
  · rw [hrun (by rintro ⟨⟩)]
  · exact absurd rfl hw

theorem Extends.of_done {longer run : Run α} (h : longer.Extends run) {w w' : World}
    {value : α} (hrun : run w = (.done value, w')) :
  longer w = (.done value, w')
  := by
  rw [← hrun]
  apply h
  rw [hrun]
  rintro ⟨⟩

end Run

namespace Interpreter

open Run (Extends IsCongruence)

/-- Whether a function of the interpreter with some fuel ends as it does with less. -/
def Activation.ExtendsTo (fuel more : Nat) : Activation → Prop
  | eval c scope e =>
    Extends (Interpreter.eval more c scope e) (Interpreter.eval fuel c scope e)
  | lookAt c scope e =>
    Extends (Interpreter.lookAt more c scope e) (Interpreter.lookAt fuel c scope e)
  | evalNode c scope e =>
    Extends (Interpreter.evalNode more c scope e) (Interpreter.evalNode fuel c scope e)
  | evalArgs c scope es =>
    Extends (Interpreter.evalArgs more c scope es) (Interpreter.evalArgs fuel c scope es)
  | evalItems c scope es =>
    Extends (Interpreter.evalItems more c scope es) (Interpreter.evalItems fuel c scope es)
  | evalFields c scope fields =>
    Extends (Interpreter.evalFields more c scope fields)
      (Interpreter.evalFields fuel c scope fields)
  | evalCases c scope value cases chosen =>
    Extends (Interpreter.evalCases more c scope value cases chosen)
      (Interpreter.evalCases fuel c scope value cases chosen)
  | applyValue c id callee args position railUse =>
    Extends (Interpreter.applyValue more c id callee args position railUse)
      (Interpreter.applyValue fuel c id callee args position railUse)
  | applyCallable c id f args position railUse =>
    Extends (Interpreter.applyCallable more c id f args position railUse)
      (Interpreter.applyCallable fuel c id f args position railUse)
  | call c name id args position railUse =>
    Extends (Interpreter.call more c name id args position railUse)
      (Interpreter.call fuel c name id args position railUse)
  | carryOut c f id args =>
    Extends (Interpreter.carryOut more c f id args) (Interpreter.carryOut fuel c f id args)
  | carryOutBody c f toplevel body site args =>
    Extends (Interpreter.carryOutBody more c f toplevel body site args)
      (Interpreter.carryOutBody fuel c f toplevel body site args)
  | carryOutBuiltin c f b site args =>
    Extends (Interpreter.carryOutBuiltin more c f b site args)
      (Interpreter.carryOutBuiltin fuel c f b site args)
  | runSteps c caller step =>
    Extends (Interpreter.runSteps more c caller step) (Interpreter.runSteps fuel c caller step)

/-- To end as another run does, or better, passes to what is put together from runs. -/
theorem isCongruence_extends (version : UInt32) :
  IsCongruence version version fun run longer => longer.Extends run
  where
  done := .refl _
  fault := .refl _
  bind := Extends.bind
  caught := Extends.caught
  report := .refl _
  enter := .refl _
  load := .refl _
  record := .refl _
  invoke := .refl _

variable {fuel more : Nat} {c : Context} {scope : Scope}

/-- With more fuel, a function of the interpreter ends in the same way. -/
theorem Activation.extends_of_le (h : fuel ≤ more) (activation : Activation) :
  activation.ExtendsTo fuel more
  := by
  obtain ⟨extra, rfl⟩ := Nat.exists_eq_add_of_le' h
  let version := activation.context.hashVersion
  have hbase (activation : Activation) :
      activation.Related version version (fun run longer => longer.Extends run) 0 extra := by
    cases activation <;> exact Extends.outOfFuel
  have hrelated : activation.Related version version (fun run longer => longer.Extends run)
      fuel (extra + fuel) :=
    activation.related_add (isCongruence_extends version) hbase
  cases activation <;> exact hrelated

/-! ### Evaluation -/

/-- Whether an expression evaluates to a value, given enough fuel. -/
def Evaluates (c : Context) (scope : Scope) (e : Expr) (w : World) (value : Value)
    (w' : World) : Prop :=
  ∃ fuel, eval fuel c scope e w = (.done value, w')

variable {e : Expr} {value : Value} {w w' : World}

/-- An expression evaluates to its value with all fuel from some amount on. -/
theorem Evaluates.from_fuel (h : Evaluates c scope e w value w') :
  ∃ fuel, ∀ more, fuel ≤ more → eval more c scope e w = (.done value, w')
  := by
  obtain ⟨fuel, hrun⟩ := h
  refine ⟨fuel, fun more hmore => ?_⟩
  exact Extends.of_done (Activation.extends_of_le hmore (.eval c scope e)) hrun

end Interpreter

end LiveExpr
