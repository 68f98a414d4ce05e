import LiveExpr.Assoc
import LiveExpr.Value.Basic

/-!
# Traces

What a run reports and what is kept of it.  A run reports the value of each node, the
toplevels whose code ran, and the results of calls, which a later preview may take up
again instead of making the call.  A store keeps such reports; one store can be laid over
another.  Main statement: `load?_record`, what is found after a result was recorded.
-/

namespace LiveExpr

/-- A call of one function from one place. -/
structure CallSite where
  /-- The toplevel that the calling expression belongs to. -/
  toplevel : ToplevelId
  name : FunctionName
  caller : NodeId
deriving DecidableEq, Repr

/-- The value of a node, and whether the node really ran. -/
structure LiveValue where
  value : Value
  executed : Bool

/-- The values that nodes were last reported with. -/
abbrev LiveValues := Assoc NodeId LiveValue

/-- The results of calls, by site and hash of the arguments. -/
abbrev Results := Assoc (CallSite × String) Value

/-- A store in memory; the last write of a key counts. -/
structure Memory where
  results : Results
  live : LiveValues
  /-- The toplevels that ran, in the order in which they first did. -/
  toplevels : List ToplevelId

namespace Memory

/-- The store with nothing in it. -/
def empty : Memory := ⟨[], [], []⟩

/-- Keeps a result. -/
def record (m : Memory) (site : CallSite) (hash : String) (value : Value) : Memory :=
  { m with results := Assoc.set (site, hash) value m.results }

/-- Keeps the value of a node. -/
def report (m : Memory) (executed : Bool) (id : NodeId) (value : Value) : Memory :=
  { m with live := Assoc.set id ⟨value, executed⟩ m.live }

/-- Keeps that a toplevel ran. -/
def enter (m : Memory) (toplevel : ToplevelId) : Memory :=
  if toplevel ∈ m.toplevels then m
  else { m with toplevels := m.toplevels ++ [toplevel] }

end Memory

/-- Where the reports of a run go. -/
inductive TraceStore where
  /-- Keeps nothing. -/
  | discarding
  /-- Keeps everything. -/
  | memory (content : Memory)
  /-- Keeps its own copy of live values and passes everything on. -/
  | recording (live : LiveValues) (inner : TraceStore)
  /-- Passes everything on, and fails after a report for one of some nodes. -/
  | failing (ids : List NodeId) (inner : TraceStore)

namespace TraceStore

/-- The result recorded for a call. -/
def load? (site : CallSite) (hash : String) : TraceStore → Option Value
  | .discarding => none
  | .memory m => Assoc.get? (site, hash) m.results
  | .recording _ inner | .failing _ inner => load? site hash inner

/-- The store after the result of a call. -/
def record (site : CallSite) (hash : String) (value : Value) : TraceStore → TraceStore
  | .discarding => .discarding
  | .memory m => .memory (m.record site hash value)
  | .recording live inner => .recording live (record site hash value inner)
  | .failing ids inner => .failing ids (record site hash value inner)

/-- The store after the report of a node. -/
def report (executed : Bool) (id : NodeId) (value : Value) : TraceStore → TraceStore
  | .discarding => .discarding
  | .memory m => .memory (m.report executed id value)
  | .recording live inner =>
    .recording (Assoc.set id ⟨value, executed⟩ live) (report executed id value inner)
  | .failing ids inner => .failing ids (report executed id value inner)

/-- Whether the store fails after the report of a node. -/
def failsAfter (id : NodeId) : TraceStore → Bool
  | .discarding | .memory _ => false
  | .recording _ inner => failsAfter id inner
  | .failing ids inner => id ∈ ids || failsAfter id inner

/-- The store after the start of a toplevel's code. -/
def enter (toplevel : ToplevelId) : TraceStore → TraceStore
  | .discarding => .discarding
  | .memory m => .memory (m.enter toplevel)
  | .recording live inner => .recording live (enter toplevel inner)
  | .failing ids inner => .failing ids (enter toplevel inner)

/-- What the store keeps in memory, below all layers. -/
def memory? : TraceStore → Option Memory
  | .discarding => none
  | .memory m => some m
  | .recording _ inner | .failing _ inner => memory? inner

/-! ### Recorded results -/

variable {store : TraceStore} {site : CallSite} {hash : String}

/-- A report of a node changes no recorded result. -/
@[simp]
theorem load?_report {executed : Bool} {id : NodeId} {value : Value} :
  (store.report executed id value).load? site hash = store.load? site hash
  := by
  induction store with
  | discarding => rfl
  | memory m => rfl
  | recording live inner ih => exact ih
  | failing ids inner ih => exact ih

/-- The start of a toplevel's code changes no recorded result. -/
@[simp]
theorem load?_enter {toplevel : ToplevelId} :
  (store.enter toplevel).load? site hash = store.load? site hash
  := by
  induction store with
  | discarding => rfl
  | memory m =>
    simp only [enter, load?, Memory.enter]
    split <;> rfl
  | recording live inner ih => exact ih
  | failing ids inner ih => exact ih

/-- Whether a store keeps the results that are recorded. -/
def keepsResults (store : TraceStore) : Bool :=
  store.memory?.isSome

theorem keepsResults_report {executed : Bool} {id : NodeId} {value : Value} :
  (store.report executed id value).keepsResults = store.keepsResults
  := by
  induction store with
  | discarding => rfl
  | memory m => rfl
  | recording live inner ih => exact ih
  | failing ids inner ih => exact ih

theorem keepsResults_enter {toplevel : ToplevelId} :
  (store.enter toplevel).keepsResults = store.keepsResults
  := by
  induction store with
  | discarding => rfl
  | memory m => rfl
  | recording live inner ih => exact ih
  | failing ids inner ih => exact ih

theorem keepsResults_record {site : CallSite} {hash : String} {value : Value} :
  (store.record site hash value).keepsResults = store.keepsResults
  := by
  induction store with
  | discarding => rfl
  | memory m => rfl
  | recording live inner ih => exact ih
  | failing ids inner ih => exact ih

/-- What is found after a result was recorded. -/
theorem load?_record {site' : CallSite} {hash' : String} {value : Value} :
  (store.record site' hash' value).load? site hash
    = if store.keepsResults = true ∧ site' = site ∧ hash' = hash then some value
      else store.load? site hash
  := by
  induction store with
  | discarding => rfl
  | memory m =>
    simp only [record, load?, Memory.record, Assoc.get?_set, keepsResults, memory?,
      Prod.mk.injEq, Option.isSome_some, true_and]
  | recording live inner ih => exact ih
  | failing ids inner ih => exact ih

/-! ### Failure -/

/-- Whether a store fails does not depend on what it is told. -/
@[simp]
theorem failsAfter_report {executed : Bool} {id other : NodeId} {value : Value} :
  (store.report executed id value).failsAfter other = store.failsAfter other
  := by
  induction store with
  | discarding => rfl
  | memory m => rfl
  | recording live inner ih => exact ih
  | failing ids inner ih => rw [report, failsAfter, failsAfter, ih]

@[simp]
theorem failsAfter_enter {toplevel : ToplevelId} {other : NodeId} :
  (store.enter toplevel).failsAfter other = store.failsAfter other
  := by
  induction store with
  | discarding => rfl
  | memory m => rfl
  | recording live inner ih => exact ih
  | failing ids inner ih => rw [enter, failsAfter, failsAfter, ih]

@[simp]
theorem failsAfter_record {site : CallSite} {hash : String} {value : Value}
    {other : NodeId} :
  (store.record site hash value).failsAfter other = store.failsAfter other
  := by
  induction store with
  | discarding => rfl
  | memory m => rfl
  | recording live inner ih => exact ih
  | failing ids inner ih => rw [record, failsAfter, failsAfter, ih]

end TraceStore

end LiveExpr
