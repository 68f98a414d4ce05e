import LiveExpr.Eval.Interpreter

/-!
# Execution

The ways into the interpreter: an expression is executed or analysed, a function called,
a function value applied.  A fault that reaches the outside becomes an error; an analysis
is a preview that hands out the values of the nodes that it reported.
-/

namespace LiveExpr

namespace Execution

/-- The fuel of a run; no program of a sensible depth uses it up. -/
def fuel : Nat := 10000000

/-- A run whose fault becomes an error from a source. -/
def guarded (source : Source) (run : Run Value) : Run Value := do
  match ← Run.caught run with
  | .ok value => pure value
  | .error reason => pure (Message.internalFault source (Run.faultText reason))

/-- Executes an expression. -/
def execute (c : Context) (scope : Scope) (e : Expr) : Run Value :=
  guarded (c.source e.id) (Interpreter.eval fuel c scope e)

/-- Calls a function, as if from a node. -/
def callFunction (c : Context) (caller : NodeId) (name : FunctionName)
    (args : List Value) : Run Value :=
  guarded (c.source caller)
    (Interpreter.call fuel c name caller args .notInPipe .noRail)

/-- Applies a function value, as if from a node.  A fault is not caught. -/
def applyFunction (c : Context) (caller : NodeId) (f : Callable) (args : List Value)
    (position : PipePosition) (railUse : RailUse) : Run Value :=
  Interpreter.applyCallable fuel c caller f args position railUse

/-- What an analysis gives. -/
structure Analysis where
  result : Value
  live : LiveValues

/-- Lays a recording store over the store of a world. -/
def startRecording : Run Unit :=
  fun w => (.done (), { w with store := .recording [] w.store })

/-- Takes a recording store off again and gives what it recorded. -/
def stopRecording : Run LiveValues :=
  fun w =>
    match w.store with
    | .recording live inner => (.done live, { w with store := inner })
    | _ => (.done [], w)

/-- Previews an expression and gives the values of its nodes. -/
def analyse (c : Context) (scope : Scope) (e : Expr) : Run Analysis := do
  startRecording
  let result ← execute { c with mode := .preview } scope e
  let live ← stopRecording
  pure ⟨result, live⟩

end Execution

end LiveExpr
