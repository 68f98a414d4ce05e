import LiveExpr.Eval.Execution
import LiveExpr.Session.Script
import LiveExpr.Stdlib

/-!
# Sessions

A session is a sequence of steps over one set of functions, record types, settings and
recorded reports: expressions are executed and analysed, functions called, results
recorded and looked up, and definitions and settings changed in between.  Main function:
`Session.step`, the answer to a step and the session after it.
-/

namespace LiveExpr

/-- The settings that evaluation starts with. -/
structure Settings where
  mode : Mode
  hashVersion : UInt32
  toplevel : ToplevelId
deriving DecidableEq, Repr

namespace Settings

/-- A description of settings. -/
def describe (s : Settings) : String :=
  let mode := match s.mode with
    | .real => "Real"
    | .preview => "Preview"
  "ExecutionConfig \x7b real_or_preview: " ++ mode ++ ", hash_version: "
    ++ toString s.hashVersion.toNat ++ ", tlid: Tlid(" ++ toString s.toplevel.toNat
    ++ ") \x7d"

end Settings

/-- What stays from step to step. -/
structure Session where
  registry : Registry
  types : TypeTable
  settings : Settings
  /-- Whether evaluation keeps its reports. -/
  keeps : Bool
  /-- The nodes after whose report the store fails. -/
  failsOn : List NodeId
  memory : Memory
  calls : Assoc FunctionName Nat
  now : Timestamp

/-- A call whose result is recorded or looked up. -/
structure RecordKey where
  name : FunctionName
  caller : NodeId
  toplevel : Option ToplevelId
  hashVersion : Option UInt32
  args : List Value

/-- Settings that are changed; the others stay. -/
structure SettingsChange where
  mode : Option Mode
  hashVersion : Option UInt32
  toplevel : Option ToplevelId

/-- A step of a session. -/
inductive Step where
  | execute (e : Expr) (scope : Scope)
  | analyse (e : Expr) (scope : Scope)
  | call (name : FunctionName) (caller : NodeId) (args : List Value)
  | apply (f : Callable) (caller : NodeId) (args : List Value) (position : PipePosition)
      (railUse : RailUse)
  | record (key : RecordKey) (result : Value)
  | load (key : RecordKey)
  | live (id : NodeId)
  | allLive
  | report (executed : Bool) (id : NodeId) (value : Value)
  | enter (toplevel : ToplevelId)
  | define (functions : List Function) (types : List UserType)
  | configure (change : SettingsChange)
  | resolve (name : FunctionName)
  | describe (id : NodeId)

/-- The answer to a step. -/
inductive Answer where
  | result (value : Value)
  | analysis (result : Value) (live : LiveValues)
  | hash (text : String)
  | found (value : Option Value)
  | live (value : Option (NodeId × LiveValue))
  | allLive (values : LiveValues)
  | functionCount (count : Nat)
  | settings (s : Settings)
  | function (f : Option Function)
  | description (text : String) (source : Source)
  | done
  | failed (e : CodecError)
  | fault (reason : String)
  | outOfFuel

namespace Session

/-- The context in which a step evaluates. -/
def context (s : Session) : Context :=
  .start s.settings.mode s.settings.hashVersion s.settings.toplevel s.registry s.types

/-- The store that evaluation reports to. -/
def store (s : Session) : TraceStore :=
  .failing s.failsOn (if s.keeps then .memory s.memory else .discarding)

/-- Live values in the order of their identifiers. -/
def sortLive (live : LiveValues) : LiveValues :=
  live.mergeSort fun a b => a.1 ≤ b.1

/-- A run as a step: its answer, what happened, the earliest first, and the session after
it. -/
def perform {α : Type} (s : Session) (run : Run α) (answer : α → Answer) :
    Answer × List (Context × Event) × Session :=
  let (outcome, w) := run ⟨s.store, [], s.calls, fun _ => 0, s.now⟩
  let s := { s with memory := w.store.memory?.getD s.memory, calls := w.calls }
  let answer := match outcome with
    | .done value => answer value
    | .fault reason => .fault (Run.faultText reason)
    | .outOfFuel => .outOfFuel
  (answer, w.log.reverse, s)

/-- The site and the hash of a recorded call. -/
def locate (s : Session) (key : RecordKey) : Except CodecError (CallSite × String) := do
  let hash ← Hashable.hash (key.hashVersion.getD s.settings.hashVersion) key.args
  .ok (⟨key.toplevel.getD s.settings.toplevel, key.name, key.caller⟩, hash)

/-- Settings after a change. -/
def changeSettings (s : Settings) (change : SettingsChange) : Settings where
  mode := change.mode.getD s.mode
  hashVersion := change.hashVersion.getD s.hashVersion
  toplevel := change.toplevel.getD s.toplevel

/-- A description of the context in which a step evaluates. -/
def describeContext (s : Session) : String :=
  "ExecutionState \x7b config: " ++ s.settings.describe ++ ", functions: "
    ++ toString s.registry.length ++ ", call_depth: 0, on_execution_path: true, .. \x7d"

/-- The answer to a step, what happened, and the session after it. -/
def step (s : Session) : Step → Answer × List (Context × Event) × Session
  | .execute e scope => s.perform (Execution.execute s.context scope e) .result
  | .analyse e scope =>
    s.perform (Execution.analyse s.context scope e) fun analysis =>
      .analysis analysis.result (sortLive analysis.live)
  | .call name caller args =>
    s.perform (Execution.callFunction s.context caller name args) .result
  | .apply f caller args position railUse =>
    s.perform (Execution.applyFunction s.context caller f args position railUse) .result
  | .record key result =>
    match s.locate key with
    | .ok (site, hash) =>
      (.hash hash, [], { s with memory := s.memory.record site hash result })
    | .error e => (.failed e, [], s)
  | .load key =>
    match s.locate key with
    | .ok place => (.found (Assoc.get? place s.memory.results), [], s)
    | .error e => (.failed e, [], s)
  | .live id => (.live ((Assoc.get? id s.memory.live).map fun v => (id, v)), [], s)
  | .allLive => (.allLive (sortLive s.memory.live), [], s)
  | .report executed id value =>
    s.perform (Run.report s.context executed id value) fun _ => .done
  | .enter toplevel => s.perform (Run.enter s.context toplevel) fun _ => .done
  | .define functions types =>
    let s := { s with
      registry := s.registry.addAll functions
      types := s.types ++ types }
    (.functionCount s.registry.length, [], s)
  | .configure change =>
    let settings := changeSettings s.settings change
    (.settings settings, [], { s with settings })
  | .resolve name => (.function (Assoc.get? name s.registry), [], s)
  | .describe id =>
    (.description s.describeContext (.node s.settings.toplevel id), [], s)

end Session

end LiveExpr
