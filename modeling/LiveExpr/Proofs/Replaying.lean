import LiveExpr.Proofs.Keeping
import LiveExpr.Stdlib

/-!
# Replays

When a second run replays a first one: on a store that kept what the first run recorded at
the calls of some nodes, the second run has the same value, records nothing else, evaluates
no body of a function and only carries out plain built-ins. The rules follow the ways in
which runs are put together; two runs one after another must record at different nodes.
-/

namespace LiveExpr

/-- Whether a function is a built-in of the standard library that only looks at its
arguments: a pure one, and not the one that applies function values. -/
def Function.IsPlain (f : Function) : Prop :=
  f ∈ Stdlib.contents ∧ f.previewability = .pure ∧ f.name ≠ .stdlib "List" "map" 0

namespace TraceStore

/-- Whether a store is in memory. -/
def IsMemory (store : TraceStore) : Prop :=
  ∃ content, store = .memory content

/-- Whether two stores have the same results of the calls by some nodes of a toplevel. -/
def AgreeAt (m : ToplevelId) (nodes : NodeId → Prop) (store other : TraceStore) : Prop :=
  ∀ site hash, site.toplevel = m → nodes site.caller →
    store.load? site hash = other.load? site hash

/-- Whether a store has no result of a call by some nodes of a toplevel. -/
def IsFreeAt (m : ToplevelId) (ids : List NodeId) (store : TraceStore) : Prop :=
  ∀ site hash, site.toplevel = m → site.caller ∈ ids → store.load? site hash = none

variable {store : TraceStore}

theorem IsMemory.report (h : store.IsMemory) {executed : Bool} {id : NodeId}
    {value : Value} :
  (store.report executed id value).IsMemory
  := by
  obtain ⟨content, rfl⟩ := h
  exact ⟨_, rfl⟩

theorem IsMemory.enter (h : store.IsMemory) {toplevel : ToplevelId} :
  (store.enter toplevel).IsMemory
  := by
  obtain ⟨content, rfl⟩ := h
  exact ⟨_, rfl⟩

theorem IsMemory.record (h : store.IsMemory) {site : CallSite} {hash : String}
    {value : Value} :
  (store.record site hash value).IsMemory
  := by
  obtain ⟨content, rfl⟩ := h
  exact ⟨_, rfl⟩

/-- A store in memory does not fail. -/
theorem IsMemory.failsAfter (h : store.IsMemory) (id : NodeId) :
  store.failsAfter id = false
  := by
  obtain ⟨content, rfl⟩ := h
  rfl

/-- What was recorded last under a key is found under it, and all else as before. -/
theorem IsMemory.load?_record (h : store.IsMemory) {site site' : CallSite}
    {hash hash' : String} {value : Value} :
  (store.record site' hash' value).load? site hash
    = if site' = site ∧ hash' = hash then some value else store.load? site hash
  := by
  obtain ⟨content, rfl⟩ := h
  rw [TraceStore.load?_record]
  simp [keepsResults, memory?]

theorem IsFreeAt.mono {m : ToplevelId} {ids more : List NodeId}
    (h : store.IsFreeAt m more) (hsub : ∀ id ∈ ids, id ∈ more) :
  store.IsFreeAt m ids
  := by
  intro site hash hm hid
  exact h site hash hm (hsub _ hid)

end TraceStore

namespace Run

variable {α β : Type}

/-- Whether a run only adds to the log, keeps a store in memory and does not fault. -/
def Grows (run : Run α) : Prop :=
  ∀ log, Keeps (fun w => w.store.IsMemory ∧ log <:+ w.log) False (fun _ => True) run

/-- A run with a store in memory keeps it there, and adds to the log. -/
theorem Grows.of_done {run : Run α} (h : run.Grows) {w w' : World} {value : α}
    (hw : w.store.IsMemory) (hrun : run w = (.done value, w')) :
  w'.store.IsMemory ∧ w.log <:+ w'.log
  := by
  obtain ⟨hw', -⟩ := h w.log w ⟨hw, List.suffix_refl _⟩
  rw [hrun] at hw'
  exact hw'

/-- What may happen in a replay: the nodes of the toplevel are reported outside of all
calls, and plain built-ins are carried out where some nodes call them. -/
def IsReplayed (m : ToplevelId) (ids : List NodeId) : Context × Event → Prop
  | (c, .report _ _ _) => c.toplevel = m ∧ c.stack = []
  | (c, .invoke f _) => f.IsPlain ∧ ∃ id ∈ ids, c.stack = [⟨f.name, id⟩]
  | _ => True

/-- Whether a run from a world has a value without a change of the results, and all that
happens may happen in a replay. -/
def Repeats (m : ToplevelId) (ids : List NodeId) (run : Run α) (value : α) (w : World) :
    Prop :=
  ∃ w', run w = (.done value, w') ∧ w'.store.IsMemory
    ∧ (∀ site hash, w'.store.load? site hash = w.store.load? site hash)
    ∧ ∃ events, w'.log = events ++ w.log ∧ ∀ entry ∈ events, IsReplayed m ids entry

/-- Whether a second run replays a first one, which records at some nodes of a toplevel,
provided that all events of the first run are safe. -/
structure Replays (m : ToplevelId) (safe : Context × Event → Prop) (ids : List NodeId)
    (run run' : Run α) : Prop where
  grows : run.Grows
  replay : ∀ {w w' value}, w.store.IsMemory → w.store.IsFreeAt m ids →
    run w = (.done value, w') → (∀ entry ∈ w'.log, safe entry) →
    w.store.AgreeAt m (· ∉ ids) w'.store ∧
      ∀ w₂ : World, w₂.store.IsMemory → w'.store.AgreeAt m (· ∈ ids) w₂.store →
        Repeats m ids run' value w₂

variable {m : ToplevelId} {safe : Context × Event → Prop} {ids ids' : List NodeId}

theorem IsReplayed.mono {entry : Context × Event} (h : IsReplayed m ids entry)
    (hsub : ∀ id ∈ ids, id ∈ ids') :
  IsReplayed m ids' entry
  := by
  obtain ⟨c, event⟩ := entry
  cases event with
  | invoke f args =>
    obtain ⟨hplain, id, hid, hstack⟩ := h
    exact ⟨hplain, id, hsub id hid, hstack⟩
  | _ => exact h

theorem Repeats.mono {run : Run α} {value : α} {w : World} (h : Repeats m ids run value w)
    (hsub : ∀ id ∈ ids, id ∈ ids') :
  Repeats m ids' run value w
  := by
  obtain ⟨w', hrun, hmemory, hsame, events, hlog, hevents⟩ := h
  use w', hrun, hmemory, hsame, events, hlog
  intro entry hentry
  exact (hevents entry hentry).mono hsub

/-- A run that repeats, followed by one that does. -/
theorem Repeats.bind {run : Run α} {next : α → Run β} {first : α} {value : β} {w : World}
    (h : Repeats m ids run first w)
    (hnext : ∀ w' : World, w'.store.IsMemory →
      (∀ site hash, w'.store.load? site hash = w.store.load? site hash) →
      Repeats m ids (next first) value w') :
  Repeats m ids (run >>= next) value w
  := by
  obtain ⟨w', hrun, hmemory, hsame, events, hlog, hevents⟩ := h
  obtain ⟨w'', hrun', hmemory', hsame', events', hlog', hevents'⟩ := hnext w' hmemory hsame
  refine ⟨w'', ?_, hmemory', ?_, events' ++ events, ?_, ?_⟩
  · rw [bind_of_done hrun, hrun']
  · intro site hash
    rw [hsame', hsame]
  · rw [hlog', hlog, List.append_assoc]
  · intro entry hentry
    rcases List.mem_append.mp hentry with hentry | hentry
    · exact hevents' entry hentry
    · exact hevents entry hentry

theorem Grows.done {value : α} :
  (pure value : Run α).Grows
  := fun _ => Keeps.done trivial

/-- Runs that add to the log one after another add to it together. -/
theorem Grows.bind {run : Run α} {next : α → Run β} (h : run.Grows)
    (hnext : ∀ value, (next value).Grows) :
  (run >>= next).Grows
  := fun log => Keeps.bind (h log) fun value _ => hnext value log

theorem Replays.done {value : α} :
  Replays m safe ids (pure value) (pure value)
  where
  grows := Grows.done
  replay {w w' v} hmemory _ hrun _ := by
    cases hrun
    constructor
    · exact fun _ _ _ _ => rfl
    · intro w₂ hmemory₂ _
      exact ⟨w₂, rfl, hmemory₂, fun _ _ => rfl, [], rfl, List.forall_mem_nil _⟩

theorem Replays.outOfFuel {run' : Run α} :
  Replays m safe ids outOfFuel run'
  where
  grows _ := Keeps.outOfFuel
  replay _ _ hrun _ := by cases hrun

theorem Replays.mono {run run' : Run α} (h : Replays m safe ids run run')
    (hsub : ∀ id ∈ ids, id ∈ ids') :
  Replays m safe ids' run run'
  where
  grows := h.grows
  replay hmemory hfree hrun hsafe := by
    obtain ⟨houtside, hreplay⟩ := h.replay hmemory (hfree.mono hsub) hrun hsafe
    constructor
    · intro site hash hm hid
      exact houtside site hash hm fun hmem => hid (hsub _ hmem)
    · intro w₂ hmemory₂ hagree
      apply Repeats.mono _ hsub
      apply hreplay w₂ hmemory₂
      intro site hash hm hid
      exact hagree site hash hm (hsub _ hid)

/-- Two runs that record at different nodes; of the value of the first it may be used what
its events tell. -/
theorem Replays.bindWhere {kind : α → Prop} {run run' : Run α} {next next' : α → Run β}
    (h : Replays m safe ids run run')
    (hkind : ∀ {w w' value}, run w = (.done value, w') →
      (∀ entry ∈ w'.log, safe entry) → kind value)
    (hgrows : ∀ value, (next value).Grows)
    (hnext : ∀ value, kind value → Replays m safe ids' (next value) (next' value))
    (hdisjoint : ∀ id ∈ ids, id ∉ ids') :
  Replays m safe (ids ++ ids') (run >>= next) (run' >>= next')
  where
  grows := h.grows.bind hgrows
  replay {w w'' value} hmemory hfree hrun hsafe := by
    obtain ⟨first, w', hrun, hrest⟩ := bind_eq_done hrun
    obtain ⟨hmemory', -⟩ := h.grows.of_done hmemory hrun
    obtain ⟨-, hlog⟩ := (hgrows first).of_done hmemory' hrest
    have hsafe' : ∀ entry ∈ w'.log, safe entry :=
      fun entry hentry => hsafe entry (hlog.mem hentry)
    obtain ⟨houtside, hreplay⟩ := h.replay hmemory
      (hfree.mono fun id => List.mem_append_left ids') hrun hsafe'
    have hfree' : w'.store.IsFreeAt m ids' := by
      intro site hash hm hid
      rw [← houtside site hash hm fun hmem => hdisjoint _ hmem hid]
      exact hfree site hash hm (List.mem_append_right ids hid)
    obtain ⟨houtside', hreplay'⟩ :=
      (hnext first (hkind hrun hsafe')).replay hmemory' hfree' hrest hsafe
    constructor
    · intro site hash hm hid
      rw [List.mem_append, not_or] at hid
      rw [houtside site hash hm hid.1, houtside' site hash hm hid.2]
    · intro w₂ hmemory₂ hagree
      have hfirst : Repeats m (ids ++ ids') run' first w₂ := by
        apply Repeats.mono _ fun id => List.mem_append_left ids'
        apply hreplay w₂ hmemory₂
        intro site hash hm hid
        rw [houtside' site hash hm (hdisjoint _ hid)]
        exact hagree site hash hm (List.mem_append_left ids' hid)
      apply hfirst.bind
      intro w₂' hmemory₂' hsame
      apply Repeats.mono _ fun id => List.mem_append_right ids
      apply hreplay' w₂' hmemory₂'
      intro site hash hm hid
      rw [hsame]
      exact hagree site hash hm (List.mem_append_right ids hid)

/-- Two runs that record at different nodes. -/
theorem Replays.bind {run run' : Run α} {next next' : α → Run β}
    (h : Replays m safe ids run run')
    (hnext : ∀ value, Replays m safe ids' (next value) (next' value))
    (hdisjoint : ∀ id ∈ ids, id ∉ ids') :
  Replays m safe (ids ++ ids') (run >>= next) (run' >>= next')
  := by
  exact h.bindWhere (fun _ _ => trivial) (fun value => (hnext value).grows)
    (fun value _ => hnext value) hdisjoint

/-- A run that records, followed by one that does not. -/
theorem Replays.andThen {run run' : Run α} {next next' : α → Run β}
    (h : Replays m safe ids run run')
    (hnext : ∀ value, Replays m safe [] (next value) (next' value)) :
  Replays m safe ids (run >>= next) (run' >>= next')
  := by
  rw [← List.append_nil ids]
  exact h.bind hnext fun _ _ => List.not_mem_nil

/-- A run that does not record, followed by one that does. -/
theorem Replays.skip {run run' : Run α} {next next' : α → Run β}
    (h : Replays m safe [] run run')
    (hnext : ∀ value, Replays m safe ids (next value) (next' value)) :
  Replays m safe ids (run >>= next) (run' >>= next')
  := h.bind hnext fun _ hid => absurd hid List.not_mem_nil

/-- A run adds to the log whether its fault is caught or not. -/
theorem Grows.caught {run : Run α} (h : run.Grows) :
  (caught run).Grows
  := by
  intro log
  have hcaught : Keeps _ False _ (Run.caught run) :=
    Keeps.caught ((h log).mono (fun _ => trivial) fun _ hv => hv)
  exact hcaught.mono id fun _ _ => trivial

/-- A fault is caught in both runs. -/
theorem Replays.caught {run run' : Run α} (h : Replays m safe ids run run') :
  Replays m safe ids (caught run) (caught run')
  where
  grows := h.grows.caught
  replay {w w' result} hmemory hfree hrun hsafe := by
    obtain ⟨-, hfault⟩ := h.grows w.log w ⟨hmemory, List.suffix_refl _⟩
    rw [Run.caught] at hrun
    split at hrun
    · next value w₁ hdone =>
      cases hrun
      obtain ⟨houtside, hreplay⟩ := h.replay hmemory hfree hdone hsafe
      use houtside
      intro w₂ hmemory₂ hagree
      obtain ⟨w₂', hrun', hrest⟩ := hreplay w₂ hmemory₂ hagree
      refine ⟨w₂', ?_, hrest⟩
      rw [Run.caught, hrun']
    · next reason w₁ hfaulted =>
      rw [hfaulted] at hfault
      cases hfault
    · cases hrun

variable {c c' : Context}

theorem Grows.report {executed : Bool} {id : NodeId} {value : Value} :
  (report c executed id value).Grows
  := by
  intro log
  apply Keeps.report
  · rintro w ⟨hmemory, hlog⟩
    exact ⟨hmemory.report, hlog.trans (List.suffix_cons _ _)⟩
  · rintro w ⟨hmemory, -⟩ hfails
    rw [hmemory.report.failsAfter] at hfails
    cases hfails

/-- In memory a report of a node only adds to the log and the live values. -/
theorem report_eq_done {executed : Bool} {id : NodeId} {value : Value} {w : World}
    (hmemory : w.store.IsMemory) :
  report c executed id value w = (.done (), { w with
    store := w.store.report executed id value
    log := (c, .report executed id value) :: w.log })
  := by
  rw [report_eq, hmemory.failsAfter]
  rfl

/-- A report that does not fault is the latest event. -/
theorem log_of_report {executed : Bool} {id : NodeId} {value : Value} {w w' : World}
    {result : Unit} (h : report c executed id value w = (.done result, w')) :
  w'.log = (c, .report executed id value) :: w.log
  := by
  rw [report_eq] at h
  obtain ⟨-, rfl⟩ := Prod.mk.inj h
  rfl

/-- A report is made in both runs. -/
theorem Replays.report {executed : Bool} {id : NodeId} {value : Value}
    (hc : c'.toplevel = m) (hstack : c'.stack = []) :
  Replays m safe ids (report c executed id value) (report c' executed id value)
  where
  grows := Grows.report
  replay {w w' _} hmemory _ hrun _ := by
    rw [report_eq_done hmemory] at hrun
    cases hrun
    constructor
    · intro site hash _ _
      rw [TraceStore.load?_report]
    · intro w₂ hmemory₂ _
      refine ⟨_, report_eq_done hmemory₂, hmemory₂.report, ?_, [_], rfl, ?_⟩
      · intro site hash
        rw [TraceStore.load?_report]
      · intro entry hentry
        rw [List.mem_singleton.mp hentry]
        exact ⟨hc, hstack⟩

/-! ### Results -/

variable {site : CallSite} {args : List Value}

theorem Repeats.done {value : α} {w : World} (hmemory : w.store.IsMemory) :
  Repeats m ids (pure value) value w
  := ⟨w, rfl, hmemory, fun _ _ => rfl, [], rfl, List.forall_mem_nil _⟩

theorem Repeats.enter {toplevel : ToplevelId} {w : World} (hmemory : w.store.IsMemory) :
  Repeats m ids (enter c toplevel) () w
  := by
  refine ⟨_, rfl, hmemory.enter, ?_, [_], rfl, ?_⟩
  · intro site hash
    exact TraceStore.load?_enter
  · intro entry hentry
    rw [List.mem_singleton.mp hentry]
    trivial

/-- Nothing is found where nothing was recorded. -/
theorem Repeats.loadIfNone {wanted : Bool} {w : World} (hmemory : w.store.IsMemory)
    (hnone : ∀ hash, w.store.load? site hash = none) :
  Repeats m ids (loadIf wanted c site args) none w
  := by
  obtain ⟨w', hrun, hstore, hlog⟩ := loadIf_eq_none hnone
  refine ⟨w', hrun, ?_, ?_, ?_⟩
  · rwa [hstore]
  · intro site hash
    rw [hstore]
  · rcases hlog with hlog | ⟨hash, hlog⟩
    · exact ⟨[], hlog, List.forall_mem_nil _⟩
    · refine ⟨[_], hlog, ?_⟩
      intro entry hentry
      rw [List.mem_singleton.mp hentry]
      trivial

/-- A recorded result is found. -/
theorem Repeats.loadIf {hash : String} {value : Value} {w : World}
    (hmemory : w.store.IsMemory) (hhash : c.argumentHash? args = some hash)
    (hvalue : w.store.load? site hash = some value) :
  Repeats m ids (loadIf true c site args) (some value) w
  := by
  refine ⟨{ w with log := (c, .load site hash (some value)) :: w.log }, ?_, hmemory,
    fun _ _ => rfl, [_], rfl, ?_⟩
  · rw [Run.loadIf, if_pos rfl, load, hhash]
    dsimp only
    rw [hvalue]
  · intro entry hentry
    rw [List.mem_singleton.mp hentry]
    trivial

/-- To record what is recorded already changes nothing. -/
theorem Repeats.record {hash : String} {value : Value} {w : World}
    (hmemory : w.store.IsMemory) (hhash : c.argumentHash? args = some hash)
    (hvalue : w.store.load? site hash = some value) :
  Repeats m ids (record c site args value) () w
  := by
  refine ⟨{ w with
    store := w.store.record site hash value
    log := (c, .record site hash args value) :: w.log }, ?_, hmemory.record, ?_, [_], rfl, ?_⟩
  · rw [Run.record, hhash]
  · intro site' hash'
    rw [hmemory.load?_record]
    split
    · next hsame =>
      obtain ⟨rfl, rfl⟩ := hsame
      rw [hvalue]
    · rfl
  · intro entry hentry
    rw [List.mem_singleton.mp hentry]
    trivial

/-- A plain built-in that one of the nodes calls may be carried out. -/
theorem Repeats.invoke {f : Function} {id : NodeId} {w : World}
    (hmemory : w.store.IsMemory) (hf : f.IsPlain) (hid : id ∈ ids)
    (hstack : c.stack = [⟨f.name, id⟩]) :
  ∃ known, Repeats m ids (invoke c f args) known w
  := by
  refine ⟨_, _, rfl, hmemory, fun _ _ => rfl, [_], rfl, ?_⟩
  intro entry hentry
  rw [List.mem_singleton.mp hentry]
  exact ⟨hf, id, hid, hstack⟩

end Run

end LiveExpr
