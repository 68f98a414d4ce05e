import LiveExpr.Proofs.Frames

/-!
# Congruence

Two runs of the same code, with other fuel or under another version of the hash.  A
relation between runs that holds of what they tell the world, and that passes to whatever
is put together from them, holds of all that the interpreter does.  Main statements:
`Activation.related_add`, for any such relation, and `Activation.simulates`, for runs that
end in the same way in worlds that correspond.
-/

namespace LiveExpr

/-! ### Versions of the hash -/

namespace Context

/-- A context under another version of the hash; reducible, so that a test of what the two
contexts share is the same test. -/
@[reducible]
def rehash (version : UInt32) (c : Context) : Context :=
  { c with hashVersion := version }

variable {version : UInt32} {c : Context}

@[simp]
theorem rehash_source {id : NodeId} :
  (c.rehash version).source id = c.source id
  := rfl

@[simp]
theorem rehash_site {name : FunctionName} {caller : NodeId} :
  (c.rehash version).site name caller = c.site name caller
  := rfl

@[simp]
theorem rehash_inCall {name : FunctionName} {caller : NodeId} :
  (c.rehash version).inCall name caller = (c.inCall name caller).rehash version
  := rfl

end Context

/-! ### Relations between runs -/

namespace Run

/-- Whether a relation between runs under one version of the hash and runs under another
passes to what is put together from them, and holds of what they tell the world. -/
structure IsCongruence (version version' : UInt32)
    (rel : ∀ {α : Type}, Run α → Run α → Prop) : Prop where
  done {α : Type} {value : α} : rel (pure value) (pure value)
  fault {α : Type} {reason : Option String} : rel (Run.fault reason : Run α) (Run.fault reason)
  bind {α β : Type} {run run' : Run α} {next next' : α → Run β} (hrun : rel run run')
    (hnext : ∀ value, rel (next value) (next' value)) : rel (run >>= next) (run' >>= next')
  caught {α : Type} {run run' : Run α} (hrun : rel run run') :
    rel (Run.caught run) (Run.caught run')
  -- the world
  report {c : Context} {executed : Bool} {id : NodeId} {value : Value} :
    rel (Run.report (c.rehash version) executed id value)
      (Run.report (c.rehash version') executed id value)
  enter {c : Context} {toplevel : ToplevelId} :
    rel (Run.enter (c.rehash version) toplevel) (Run.enter (c.rehash version') toplevel)
  load {c : Context} {site : CallSite} {args : List Value} :
    rel (Run.load (c.rehash version) site args) (Run.load (c.rehash version') site args)
  record {c : Context} {site : CallSite} {args : List Value} {value : Value} :
    rel (Run.record (c.rehash version) site args value)
      (Run.record (c.rehash version') site args value)
  invoke {c : Context} {f : Function} {args : List Value} :
    rel (Run.invoke (c.rehash version) f args) (Run.invoke (c.rehash version') f args)

variable {version version' : UInt32} {rel : ∀ {α : Type}, Run α → Run α → Prop}

/-- A look-up that may be left out is left out of both runs. -/
theorem IsCongruence.loadIf (h : IsCongruence version version' rel) {wanted : Bool}
    {c : Context} {site : CallSite} {args : List Value} :
  rel (loadIf wanted (c.rehash version) site args) (loadIf wanted (c.rehash version') site args)
  := by
  rw [Run.loadIf, Run.loadIf]
  split
  · exact h.load
  · exact h.done

end Run

namespace Interpreter

open Run (IsCongruence)

/-- Whether a relation holds between a function of the interpreter with some fuel under one
version of the hash and the function with other fuel under another version. -/
def Activation.Related (version version' : UInt32) (rel : ∀ {α : Type}, Run α → Run α → Prop)
    (fuel fuel' : Nat) : Activation → Prop
  | eval c scope e =>
    rel (Interpreter.eval fuel (c.rehash version) scope e)
      (Interpreter.eval fuel' (c.rehash version') scope e)
  | lookAt c scope e =>
    rel (Interpreter.lookAt fuel (c.rehash version) scope e)
      (Interpreter.lookAt fuel' (c.rehash version') scope e)
  | evalNode c scope e =>
    rel (Interpreter.evalNode fuel (c.rehash version) scope e)
      (Interpreter.evalNode fuel' (c.rehash version') scope e)
  | evalArgs c scope es =>
    rel (Interpreter.evalArgs fuel (c.rehash version) scope es)
      (Interpreter.evalArgs fuel' (c.rehash version') scope es)
  | evalItems c scope es =>
    rel (Interpreter.evalItems fuel (c.rehash version) scope es)
      (Interpreter.evalItems fuel' (c.rehash version') scope es)
  | evalFields c scope fields =>
    rel (Interpreter.evalFields fuel (c.rehash version) scope fields)
      (Interpreter.evalFields fuel' (c.rehash version') scope fields)
  | evalCases c scope value cases chosen =>
    rel (Interpreter.evalCases fuel (c.rehash version) scope value cases chosen)
      (Interpreter.evalCases fuel' (c.rehash version') scope value cases chosen)
  | applyValue c id callee args position railUse =>
    rel (Interpreter.applyValue fuel (c.rehash version) id callee args position railUse)
      (Interpreter.applyValue fuel' (c.rehash version') id callee args position railUse)
  | applyCallable c id f args position railUse =>
    rel (Interpreter.applyCallable fuel (c.rehash version) id f args position railUse)
      (Interpreter.applyCallable fuel' (c.rehash version') id f args position railUse)
  | call c name id args position railUse =>
    rel (Interpreter.call fuel (c.rehash version) name id args position railUse)
      (Interpreter.call fuel' (c.rehash version') name id args position railUse)
  | carryOut c f id args =>
    rel (Interpreter.carryOut fuel (c.rehash version) f id args)
      (Interpreter.carryOut fuel' (c.rehash version') f id args)
  | carryOutBody c f toplevel body site args =>
    rel (Interpreter.carryOutBody fuel (c.rehash version) f toplevel body site args)
      (Interpreter.carryOutBody fuel' (c.rehash version') f toplevel body site args)
  | carryOutBuiltin c f b site args =>
    rel (Interpreter.carryOutBuiltin fuel (c.rehash version) f b site args)
      (Interpreter.carryOutBuiltin fuel' (c.rehash version') f b site args)
  | runSteps c caller step =>
    rel (Interpreter.runSteps fuel (c.rehash version) caller step)
      (Interpreter.runSteps fuel' (c.rehash version') caller step)

section

variable {version version' : UInt32} {rel : ∀ {α : Type}, Run α → Run α → Prop}
  (h : IsCongruence version version' rel) {fuel fuel' : Nat} {c : Context} {scope : Scope}
include h

/-! ### Reports -/

theorem reportParameters_related (parameters : List (NodeId × String)) :
  rel (reportParameters (c.rehash version) parameters)
    (reportParameters (c.rehash version') parameters)
  := by
  induction parameters with
  | nil => exact h.done
  | cons parameter rest ih =>
    obtain ⟨id, name⟩ := parameter
    exact h.bind h.report fun _ => ih

theorem reportPattern_related {executed : Bool} (reports : List (NodeId × Value)) :
  rel (reportPattern (c.rehash version) executed reports)
    (reportPattern (c.rehash version') executed reports)
  := by
  induction reports with
  | nil => exact h.done
  | cons report rest ih =>
    obtain ⟨id, value⟩ := report
    exact h.bind h.report fun _ => ih

/-! ### Expressions -/

variable (ih : ∀ activation : Activation, activation.Related version version' rel fuel fuel')
include ih

theorem eval_related (e : Expr) :
  Activation.Related version version' rel (fuel + 1) (fuel' + 1) (.eval c scope e)
  := by
  refine h.bind (ih (.evalNode c scope e)) fun _ => ?_
  exact h.bind h.report fun _ => h.done

theorem lookAt_related (e : Expr) :
  Activation.Related version version' rel (fuel + 1) (fuel' + 1) (.lookAt c scope e)
  := h.bind (ih (.eval c.lookAside scope e)) fun _ => h.done

/-- Code is looked at after a run. -/
theorem thenLookAt_related {α : Type} {run run' : Run α} {result : α → Value} {other : Expr}
    (hrun : rel run run') :
  rel
    (do
      let value ← run
      lookAt fuel (c.rehash version) scope other
      pure (result value))
    (do
      let value ← run'
      lookAt fuel' (c.rehash version') scope other
      pure (result value))
  := by
  refine h.bind hrun fun _ => ?_
  exact h.bind (ih (.lookAt c scope other)) fun _ => h.done

/-- Branches that are taken are related. -/
theorem taken_related {other taken : Expr} :
  rel
    (do
      lookAt fuel (c.rehash version) scope other
      eval fuel (c.rehash version) scope taken)
    (do
      lookAt fuel' (c.rehash version') scope other
      eval fuel' (c.rehash version') scope taken)
  := h.bind (ih (.lookAt c scope other)) fun _ => ih (.eval c scope taken)

theorem constructor_related {id : NodeId} {name : String} {args : List Expr} :
  Activation.Related version version' rel (fuel + 1) (fuel' + 1)
    (.evalNode c scope (.constructor id name args))
  := by
  dsimp only [Activation.Related]
  unfold evalNode
  dsimp only [Context.rehash_source]
  split
  · exact h.done
  · exact h.bind (ih (.eval c scope _)) fun _ => h.done
  · exact h.bind (ih (.eval c scope _)) fun _ => h.done
  · exact h.bind (ih (.eval c scope _)) fun _ => h.done
  · split <;> exact h.done

/-- The evaluations of a node are related, by cases on the node. -/
theorem evalNode_related (e : Expr) :
  Activation.Related version version' rel (fuel + 1) (fuel' + 1) (.evalNode c scope e)
  := by
  cases e with
  | constructor => exact constructor_related h ih
  | blank | integer | float | bool | null | string | functionValue => exact h.done
  | character id text =>
    simp only [Activation.Related, evalNode, Context.rehash_source]
    split <;> exact h.done
  | «variable» id name =>
    simp only [Activation.Related, evalNode, Context.rehash_source]
    split
    · exact h.done
    · split <;> exact h.done
  | lambda id parameters body =>
    simp only [Activation.Related, evalNode]
    split
    · exact h.bind (reportParameters_related h parameters) fun _ => h.done
    · exact h.done
  | letIn id name value body =>
    simp only [Activation.Related, evalNode]
    refine h.bind (ih (.eval c scope value)) fun _ => ?_
    split
    · exact h.done
    · exact ih (.eval c _ body)
  | list id items =>
    simp only [Activation.Related, evalNode]
    refine h.bind (ih (.evalItems c scope items)) fun _ => ?_
    split <;> exact h.done
  | record id fields =>
    simp only [Activation.Related, evalNode]
    exact h.bind (ih (.evalFields c scope fields)) fun _ => h.done
  | fieldAccess id object field =>
    simp only [Activation.Related, evalNode, Context.rehash_source]
    refine h.bind (ih (.eval c scope object)) fun _ => ?_
    split
    · exact h.done
    · split <;> exact h.done
  | conditional id condition thenCase elseCase =>
    simp only [Activation.Related, evalNode]
    refine h.bind (ih (.eval c scope condition)) fun _ => ?_
    split
    · exact taken_related h ih
    · exact taken_related h ih
    · split
      · exact thenLookAt_related h ih (ih (.lookAt c scope thenCase))
      · exact thenLookAt_related h ih (ih (.eval c scope thenCase))
  | featureFlag id condition oldCode newCode =>
    simp only [Activation.Related, evalNode]
    refine h.bind (h.caught (ih (.eval c scope condition))) fun _ => ?_
    split
    · exact taken_related h ih
    · exact taken_related h ih
  | matchCases id scrutinee cases =>
    simp only [Activation.Related, evalNode, Context.rehash_source]
    refine h.bind (ih (.eval c scope scrutinee)) fun value => ?_
    refine h.bind (ih (.evalCases c scope value cases none)) fun _ => ?_
    split
    · exact h.done
    · split <;> exact h.done
  | apply id callee args position railUse =>
    simp only [Activation.Related, evalNode]
    refine h.bind (ih (.eval c scope callee)) fun callee => ?_
    refine h.bind (ih (.evalArgs c scope args)) fun values => ?_
    refine h.bind (ih (.applyValue c id callee values position railUse)) fun _ => ?_
    split
    · exact h.bind h.report fun _ => h.done
    · exact h.done

theorem evalArgs_related (es : List Expr) :
  Activation.Related version version' rel (fuel + 1) (fuel' + 1) (.evalArgs c scope es)
  := by
  cases es with
  | nil => exact h.done
  | cons e rest =>
    simp only [Activation.Related, evalArgs]
    refine h.bind (ih (.eval c scope e)) fun _ => ?_
    exact h.bind (ih (.evalArgs c scope rest)) fun _ => h.done

theorem evalItems_related (es : List Expr) :
  Activation.Related version version' rel (fuel + 1) (fuel' + 1) (.evalItems c scope es)
  := by
  cases es with
  | nil => exact h.done
  | cons e rest =>
    simp only [Activation.Related, evalItems]
    refine h.bind (ih (.eval c scope e)) fun _ => ?_
    split
    · exact h.done
    · refine h.bind (ih (.evalItems c scope rest)) fun _ => ?_
      split <;> exact h.done

theorem evalFields_related (fields : List (String × Expr)) :
  Activation.Related version version' rel (fuel + 1) (fuel' + 1) (.evalFields c scope fields)
  := by
  cases fields with
  | nil => exact h.done
  | cons field rest =>
    obtain ⟨name, e⟩ := field
    simp only [Activation.Related, evalFields]
    split
    · exact ih (.evalFields c scope rest)
    · refine h.bind (ih (.eval c scope e)) fun _ => ?_
      exact h.bind (ih (.evalFields c scope rest)) fun _ => h.done

theorem evalCases_related (value : Value) (cases : List (Pattern × Expr))
    (chosen : Option Value) :
  Activation.Related version version' rel (fuel + 1) (fuel' + 1)
    (.evalCases c scope value cases chosen)
  := by
  cases cases with
  | nil => exact h.done
  | cons case rest =>
    obtain ⟨pattern, body⟩ := case
    simp only [Activation.Related, evalCases]
    split
    · refine h.bind (ih (.eval c _ body)) fun result => ?_
      refine h.bind (reportPattern_related h _) fun _ => ?_
      exact ih (.evalCases c scope value rest (some result))
    · refine h.bind (ih (.lookAt c _ body)) fun _ => ?_
      refine h.bind (reportPattern_related h _) fun _ => ?_
      exact ih (.evalCases c scope value rest chosen)

/-! ### Calls -/

theorem applyValue_related (id : NodeId) (callee : Value) (args : List Value)
    (position : PipePosition) (railUse : RailUse) :
  Activation.Related version version' rel (fuel + 1) (fuel' + 1)
    (.applyValue c id callee args position railUse)
  := by
  simp only [Activation.Related, applyValue, Context.rehash_source]
  split
  · exact ih (.applyCallable c id _ args position railUse)
  · split
    · exact h.done
    · split <;> exact h.done

theorem applyCallable_related (id : NodeId) (f : Callable) (args : List Value)
    (position : PipePosition) (railUse : RailUse) :
  Activation.Related version version' rel (fuel + 1) (fuel' + 1)
    (.applyCallable c id f args position railUse)
  := by
  cases f with
  | named name =>
    simp only [Activation.Related, applyCallable]
    exact ih (.call c name id args position railUse)
  | lambda parameters captured body =>
    simp only [Activation.Related, applyCallable, Context.rehash_source]
    split
    · exact h.done
    · split
      · exact h.done
      · exact ih (.eval c _ body)

theorem call_related (name : FunctionName) (id : NodeId) (args : List Value)
    (position : PipePosition) (railUse : RailUse) :
  Activation.Related version version' rel (fuel + 1) (fuel' + 1)
    (.call c name id args position railUse)
  := by
  simp only [Activation.Related, call, Context.rehash_source, Context.rehash_site]
  split
  · exact h.done
  · split
    · split
      · exact h.bind h.load fun _ => h.done
      · exact h.done
    · next f _ =>
      split
      · exact h.done
      · split
        · split <;> exact h.done
        · refine h.bind (ih (.carryOut c f id args)) fun _ => ?_
          split <;> exact h.done

theorem carryOut_related (f : Function) (id : NodeId) (args : List Value) :
  Activation.Related version version' rel (fuel + 1) (fuel' + 1) (.carryOut c f id args)
  := by
  simp only [Activation.Related, carryOut, Context.rehash_source, Context.rehash_site,
    Context.rehash_inCall]
  split
  · exact h.bind (ih (.carryOutBuiltin (c.inCall f.name id) f _ _ args)) fun _ => h.done
  · split
    · exact h.done
    · split
      · exact h.done
      · exact h.bind (ih (.carryOutBody (c.inCall f.name id) f _ _ _ args)) fun _ => h.done

theorem carryOutBody_related (f : Function) (toplevel : ToplevelId) (body : Expr)
    (site : CallSite) (args : List Value) :
  Activation.Related version version' rel (fuel + 1) (fuel' + 1)
    (.carryOutBody c f toplevel body site args)
  := by
  simp only [Activation.Related, carryOutBody]
  refine h.bind h.enter fun _ => ?_
  refine h.bind h.loadIf fun recorded => ?_
  cases recorded with
  | some result => exact h.bind h.record fun _ => h.done
  | none =>
    refine h.bind (ih (.eval (c.inToplevel toplevel) _ body)) fun _ => ?_
    exact h.bind h.record fun _ => h.done

theorem carryOutBuiltin_related (f : Function) (b : Builtin) (site : CallSite)
    (args : List Value) :
  Activation.Related version version' rel (fuel + 1) (fuel' + 1)
    (.carryOutBuiltin c f b site args)
  := by
  simp only [Activation.Related, carryOutBuiltin, Context.rehash_source]
  refine h.bind h.loadIf fun recorded => ?_
  cases recorded with
  | some result => exact h.done
  | none =>
    dsimp only
    split
    · exact h.done
    · refine h.bind h.invoke fun known => ?_
      refine h.bind (h.caught (ih (.runSteps c site.caller _))) fun _ => ?_
      split
      · exact h.bind h.record fun _ => h.done
      · exact h.done

theorem runSteps_related (caller : NodeId) (step : BuiltinStep) :
  Activation.Related version version' rel (fuel + 1) (fuel' + 1) (.runSteps c caller step)
  := by
  cases step with
  | finish => exact h.done
  | fail => exact h.fault
  | apply f args position railUse next =>
    simp only [Activation.Related, runSteps]
    refine h.bind (ih (.applyCallable c caller f args position railUse)) fun value => ?_
    exact ih (.runSteps c caller (next value))

/-- The relation holds of a function of the interpreter if it holds of those that it
calls. -/
theorem Activation.related_succ (activation : Activation) :
  activation.Related version version' rel (fuel + 1) (fuel' + 1)
  := by
  cases activation with
  | eval c scope e => exact eval_related h ih e
  | lookAt c scope e => exact lookAt_related h ih e
  | evalNode c scope e => exact evalNode_related h ih e
  | evalArgs c scope es => exact evalArgs_related h ih es
  | evalItems c scope es => exact evalItems_related h ih es
  | evalFields c scope fields => exact evalFields_related h ih fields
  | evalCases c scope value cases chosen => exact evalCases_related h ih value cases chosen
  | applyValue c id callee args position railUse =>
    exact applyValue_related h ih id callee args position railUse
  | applyCallable c id f args position railUse =>
    exact applyCallable_related h ih id f args position railUse
  | call c name id args position railUse => exact call_related h ih name id args position railUse
  | carryOut c f id args => exact carryOut_related h ih f id args
  | carryOutBody c f toplevel body site args =>
    exact carryOutBody_related h ih f toplevel body site args
  | carryOutBuiltin c f b site args => exact carryOutBuiltin_related h ih f b site args
  | runSteps c caller step => exact runSteps_related h ih caller step

omit ih in
/-- The relation holds of all that the interpreter does if it holds of a lack of fuel. -/
theorem Activation.related_add
    (hbase : ∀ activation : Activation, activation.Related version version' rel 0 fuel')
    (activation : Activation) :
  activation.Related version version' rel fuel (fuel' + fuel)
  := by
  induction fuel generalizing activation with
  | zero => exact hbase activation
  | succ fuel ih => exact activation.related_succ h ih

end

end Interpreter

/-! ### Worlds that correspond -/

namespace Run

variable {α β : Type}

/-- Whether two runs, from worlds that correspond, end in the same way in worlds that
correspond. -/
def Simulates (corresponds : World → World → Prop) (run run' : Run α) : Prop :=
  ∀ w w', corresponds w w' → (run w).1 = (run' w').1 ∧ corresponds (run w).2 (run' w').2

variable {corresponds : World → World → Prop} {run run' : Run α} {next next' : α → Run β}

theorem Simulates.done {value : α} :
  Simulates corresponds (pure value) (pure value)
  := fun _ _ hw => ⟨rfl, hw⟩

theorem Simulates.fault {reason : Option String} :
  Simulates corresponds (Run.fault reason : Run α) (Run.fault reason)
  := fun _ _ hw => ⟨rfl, hw⟩

theorem Simulates.outOfFuel :
  Simulates corresponds (Run.outOfFuel : Run α) Run.outOfFuel
  := fun _ _ hw => ⟨rfl, hw⟩

/-- Runs that are simulated one after another are simulated together. -/
theorem Simulates.bind (hrun : Simulates corresponds run run')
    (hnext : ∀ value, Simulates corresponds (next value) (next' value)) :
  Simulates corresponds (run >>= next) (run' >>= next')
  := by
  intro w w' hw
  change (andThen run next w).1 = (andThen run' next' w').1
    ∧ corresponds (andThen run next w).2 (andThen run' next' w').2
  obtain ⟨houtcome, hworlds⟩ := hrun w w' hw
  rw [andThen, andThen]
  generalize run w = ending at houtcome hworlds
  generalize run' w' = ending' at houtcome hworlds
  obtain ⟨outcome, w₁⟩ := ending
  obtain ⟨_, w₁'⟩ := ending'
  obtain rfl := houtcome
  cases outcome with
  | done value => exact hnext value w₁ w₁' hworlds
  | fault reason => exact ⟨rfl, hworlds⟩
  | outOfFuel => exact ⟨rfl, hworlds⟩

/-- A fault is caught in both runs. -/
theorem Simulates.caught (h : Simulates corresponds run run') :
  Simulates corresponds (Run.caught run) (Run.caught run')
  := by
  intro w w' hw
  obtain ⟨houtcome, hworlds⟩ := h w w' hw
  rw [Run.caught, Run.caught]
  generalize run w = ending at houtcome hworlds
  generalize run' w' = ending' at houtcome hworlds
  obtain ⟨outcome, w₁⟩ := ending
  obtain ⟨_, w₁'⟩ := ending'
  obtain rfl := houtcome
  cases outcome with
  | done value => exact ⟨rfl, hworlds⟩
  | fault reason => exact ⟨rfl, hworlds⟩
  | outOfFuel => exact ⟨rfl, hworlds⟩

end Run

namespace Interpreter

open Run (IsCongruence Simulates)

/-- Worlds that correspond before the interpreter is at work correspond afterwards, if they
do after whatever they are told. -/
theorem Activation.simulates {corresponds : World → World → Prop} {version version' : UInt32}
    (h : IsCongruence version version' (Simulates corresponds)) (fuel : Nat)
    (activation : Activation) :
  activation.Related version version' (Simulates corresponds) fuel fuel
  := by
  have hbase (activation : Activation) :
      activation.Related version version' (Simulates corresponds) 0 0 := by
    cases activation <;> exact Simulates.outOfFuel
  have hrelated : activation.Related version version' (Simulates corresponds) fuel (0 + fuel) :=
    activation.related_add h hbase
  rwa [Nat.zero_add] at hrelated

end Interpreter

end LiveExpr
