import LiveExpr.Eval.Context

/-!
# Runs

A run takes the world to an outcome and a new world.  The world holds what the store
keeps, a log of what happened and in which contexts, and the clock.  A run ends with a
value, with a fault, which cuts short everything up to the next place that catches it, or
for lack of fuel.
-/

namespace LiveExpr

/-- What happens during a run and can be seen from outside. -/
inductive Event where
  /-- A node is reported with its value. -/
  | report (executed : Bool) (id : NodeId) (value : Value)
  /-- The code of a toplevel starts to run. -/
  | enter (toplevel : ToplevelId)
  /-- A recorded result is looked for. -/
  | load (site : CallSite) (hash : String) (found : Option Value)
  /-- A result is recorded. -/
  | record (site : CallSite) (hash : String) (args : List Value) (value : Value)
  /-- A built-in is carried out. -/
  | invoke (f : Function) (args : List Value)

/-- What a run changes. -/
structure World where
  store : TraceStore
  /-- What happened, each event with its context, the latest first. -/
  log : List (Context × Event)
  /-- How often built-ins were carried out. -/
  calls : Assoc FunctionName Nat
  /-- How many built-ins were carried out in each mode. -/
  turns : Mode → Nat
  /-- The time by the clock. -/
  now : Timestamp

/-- The world in which nothing has happened yet, with an empty store in memory. -/
def World.fresh (now : Timestamp) : World where
  store := .memory .empty
  log := []
  calls := []
  turns _ := 0
  now

/-- How a run ends. -/
inductive Outcome (α : Type) where
  | done (value : α)
  | fault (reason : Option String)
  | outOfFuel
deriving DecidableEq, Repr

/-- A run, from world to world. -/
def Run (α : Type) : Type :=
  World → Outcome α × World

namespace Run

variable {α β : Type}

/-- The run that only has a value. -/
def done (value : α) : Run α :=
  fun w => (.done value, w)

/-- One run after another; a fault or lack of fuel ends both. -/
def andThen (run : Run α) (next : α → Run β) : Run β :=
  fun w =>
    match run w with
    | (.done value, w) => next value w
    | (.fault reason, w) => (.fault reason, w)
    | (.outOfFuel, w) => (.outOfFuel, w)

instance : Monad Run where
  pure := done
  bind := andThen

/-- The run that lacks fuel. -/
def outOfFuel : Run α :=
  fun w => (.outOfFuel, w)

/-- The run that ends with a fault. -/
def fault (reason : Option String) : Run α :=
  fun w => (.fault reason, w)

/-- A run whose fault is caught. -/
def caught (run : Run α) : Run (Except (Option String) α) :=
  fun w =>
    match run w with
    | (.done value, w) => (.done (.ok value), w)
    | (.fault reason, w) => (.done (.error reason), w)
    | (.outOfFuel, w) => (.outOfFuel, w)

/-- The text of a fault. -/
def faultText (reason : Option String) : String :=
  reason.getD "unknown panic"

/-- Reports the value of a node. -/
def report (c : Context) (executed : Bool) (id : NodeId) (value : Value) : Run Unit :=
  fun w =>
    let w := { w with
      store := w.store.report executed id value
      log := (c, .report executed id value) :: w.log }
    if w.store.failsAfter id then (.fault (some s!"trace {id}"), w) else (.done (), w)

/-- Reports the start of a toplevel's code. -/
def enter (c : Context) (toplevel : ToplevelId) : Run Unit :=
  fun w =>
    (.done (), { w with
      store := w.store.enter toplevel
      log := (c, .enter toplevel) :: w.log })

/-- Looks for the recorded result of a call. -/
def load (c : Context) (site : CallSite) (args : List Value) : Run (Option Value) :=
  match c.argumentHash? args with
  | none => done none
  | some hash => fun w =>
    let found := w.store.load? site hash
    (.done found, { w with log := (c, .load site hash found) :: w.log })

/-- Looks for the recorded result of a call if it may stand in for the call. -/
def loadIf (wanted : Bool) (c : Context) (site : CallSite) (args : List Value) :
    Run (Option Value) :=
  if wanted then load c site args else done none

/-- Records the result of a call. -/
def record (c : Context) (site : CallSite) (args : List Value) (value : Value) : Run Unit :=
  match c.argumentHash? args with
  | none => done ()
  | some hash => fun w =>
    (.done (), { w with
      store := w.store.record site hash value
      log := (c, .record site hash args value) :: w.log })

/-- Reports that a built-in is carried out, and gives it what it may know. -/
def invoke (c : Context) (f : Function) (args : List Value) : Run BuiltinContext :=
  fun w =>
    let calls := (Assoc.get? f.name w.calls).getD 0 + 1
    let turn := w.turns c.mode
    (.done ⟨w.now, c.sharing c.mode turn, calls⟩, { w with
      calls := Assoc.set f.name calls w.calls
      turns := fun mode => if mode = c.mode then turn + 1 else w.turns mode
      log := (c, .invoke f args) :: w.log })

end Run

end LiveExpr
