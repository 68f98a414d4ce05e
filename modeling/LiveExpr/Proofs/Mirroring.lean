import LiveExpr.Proofs.Replaying
import LiveExpr.Proofs.Unobserved

/-!
# Mirrored runs

When previews mirror a run: a preview that starts with the results that are known before
the run has its value and then knows the results that are known after it, and a preview
that already knows those has the same value and learns nothing. What is known is a table
of results. The rules follow the ways in which runs are put together.
-/

namespace LiveExpr

/-! ### Tables of results -/

/-- The results of calls by site and hash of the arguments. -/
abbrev ResultTable := CallSite → String → Option Value

namespace ResultTable

variable {S S' T U : ResultTable}

/-- Whether the results of a table are also in another. -/
def IsWithin (S T : ResultTable) : Prop :=
  ∀ site hash value, S site hash = some value → T site hash = some value

theorem IsWithin.refl (S : ResultTable) :
  S.IsWithin S
  := fun _ _ _ h => h

/-- What is within a table is within a larger one. -/
theorem IsWithin.trans (h : S.IsWithin T) (h' : T.IsWithin U) :
  S.IsWithin U
  := fun site hash value hvalue => h' site hash value (h site hash value hvalue)

/-- How the results grow during a run: the table stays sound, and the results of functions
under way stay as they are. -/
structure Grows (sound : ResultTable → Prop) (stack : CallStack) (S S' : ResultTable) :
    Prop where
  isWithin : S.IsWithin S'
  isSound : sound S'
  stack : ∀ site hash, site.name ∈ stack.names → S' site hash = S site hash

variable {sound : ResultTable → Prop} {stack : CallStack}

theorem Grows.refl (h : sound S) :
  Grows sound stack S S
  := ⟨.refl S, h, fun _ _ _ => rfl⟩

/-- Growing twice is growing. -/
theorem Grows.trans (h : Grows sound stack S T) (h' : Grows sound stack T U) :
  Grows sound stack S U
  where
  isWithin := h.isWithin.trans h'.isWithin
  isSound := h'.isSound
  stack site hash hname := (h'.stack site hash hname).trans (h.stack site hash hname)

/-- Whether a table only has results of some functions. -/
def IsOf (names : FunctionName → Prop) (S : ResultTable) : Prop :=
  ∀ site hash, ¬ names site.name → S site hash = none

/-- The tables before and after a preview of a run: those of the run, or twice one that
has all results already. -/
inductive Moves (names : FunctionName → Prop) (S S' : ResultTable) :
    ResultTable → ResultTable → Prop where
  | along : Moves names S S' S S'
  | past {T : ResultTable} (h : S'.IsWithin T) (hT : T.IsOf names) : Moves names S S' T T

variable {names : FunctionName → Prop} {S₁ S₂ T' : ResultTable}

/-- A preview of one run after another. -/
theorem Moves.split (h : Moves names S S₂ T T') (h₂ : S₁.IsWithin S₂) :
  ∃ T₁, Moves names S S₁ T T₁ ∧ Moves names S₁ S₂ T₁ T'
  := by
  cases h with
  | along => exact ⟨S₁, .along, .along⟩
  | past h hT => exact ⟨T, .past (h₂.trans h) hT, .past h hT⟩

/-- Where the first run adds nothing, neither does the second. -/
theorem Moves.same (h : Moves names S S T T') :
  T' = T
  := by
  cases h <;> rfl

/-- Results are added only. -/
theorem Moves.isWithin (h : Moves names S S T T') :
  S.IsWithin T
  := by
  cases h with
  | along => exact .refl S
  | past h hT => exact h

/-- Only results of the functions with the names are added. -/
theorem Moves.isOf (h : Moves names S S' T T') (hS : S.IsOf names) :
  T.IsOf names
  := by
  cases h with
  | along => exact hS
  | past h hT => exact hT

end ResultTable

/-! ### Stores and tables -/

namespace TraceStore

variable {store other : TraceStore} {S S' : ResultTable}

/-- Whether a store does not fail and keeps exactly the results of a table. -/
structure Holds (S : ResultTable) (store : TraceStore) : Prop where
  isReliable : store.IsReliable
  keeps : store.keepsResults = true
  load : ∀ site hash, store.load? site hash = S site hash

/-- Whether a store does not fail and finds no results but those of a table. -/
structure IsWithin (S : ResultTable) (store : TraceStore) : Prop where
  isReliable : store.IsReliable
  load : ∀ site hash value, store.load? site hash = some value → S site hash = some value

/-- A store holds one table of results. -/
theorem Holds.unique (h : store.Holds S) (h' : store.Holds S') :
  S' = S
  := by
  funext site hash
  rw [← h.load, ← h'.load]

/-- Whether a store is as another as far as failure and results go. -/
structure IsLike (store other : TraceStore) : Prop where
  fails : ∀ id, other.failsAfter id = store.failsAfter id
  keeps : other.keepsResults = store.keepsResults
  load : ∀ site hash, other.load? site hash = store.load? site hash

theorem IsLike.refl (store : TraceStore) :
  store.IsLike store
  := ⟨fun _ => rfl, rfl, fun _ _ => rfl⟩

/-- A report leaves the results of a store alone. -/
theorem isLike_report (store : TraceStore) (executed : Bool) (id : NodeId) (value : Value) :
  store.IsLike (store.report executed id value)
  where
  fails _ := failsAfter_report
  keeps := keepsResults_report
  load _ _ := load?_report

/-- Entering a toplevel leaves the results of a store alone. -/
theorem isLike_enter (store : TraceStore) (toplevel : ToplevelId) :
  store.IsLike (store.enter toplevel)
  where
  fails _ := failsAfter_enter
  keeps := keepsResults_enter
  load _ _ := load?_enter

theorem IsLike.trans {third : TraceStore} (h : store.IsLike other) (h' : other.IsLike third) :
  store.IsLike third
  where
  fails id := (h'.fails id).trans (h.fails id)
  keeps := h'.keeps.trans h.keeps
  load site hash := (h'.load site hash).trans (h.load site hash)

/-- A store with the same results as one that does not fail does not fail. -/
theorem IsReliable.like (hstore : store.IsReliable) (h : store.IsLike other) :
  other.IsReliable
  := fun id => (h.fails id).trans (hstore id)

/-- Stores with the same results hold the same table. -/
theorem Holds.like (hstore : store.Holds S) (h : store.IsLike other) :
  other.Holds S
  where
  isReliable := hstore.isReliable.like h
  keeps := h.keeps.trans hstore.keeps
  load site hash := (h.load site hash).trans (hstore.load site hash)

/-- Stores with the same results are within the same tables. -/
theorem IsWithin.like (hstore : store.IsWithin S) (h : store.IsLike other) :
  other.IsWithin S
  where
  isReliable := hstore.isReliable.like h
  load site hash value hvalue :=
    hstore.load site hash value ((h.load site hash).symm.trans hvalue)

/-- A store within a table is within larger ones. -/
theorem IsWithin.mono (hstore : store.IsWithin S) (h : S.IsWithin S') :
  store.IsWithin S'
  where
  isReliable := hstore.isReliable
  load site hash value hvalue := h site hash value (hstore.load site hash value hvalue)

end TraceStore

/-- The table with a further result. -/
def ResultTable.add (S : ResultTable) (site : CallSite) (hash : String) (value : Value) :
    ResultTable :=
  fun site' hash' => if site = site' ∧ hash = hash' then some value else S site' hash'

namespace TraceStore

variable {store : TraceStore} {S : ResultTable} {site : CallSite} {hash : String}
  {value : Value}

/-- After a result is recorded, the store holds it beside the others. -/
theorem Holds.record (h : store.Holds S) :
  (store.record site hash value).Holds (S.add site hash value)
  where
  isReliable := h.isReliable.record
  keeps := keepsResults_record.trans h.keeps
  load site' hash' := by
    rw [load?_record, ResultTable.add, h.load]
    simp [h.keeps]

/-- Recording a result that the table has stays within the table. -/
theorem IsWithin.record (h : store.IsWithin S) (hvalue : S site hash = some value) :
  (store.record site hash value).IsWithin S
  where
  isReliable := h.isReliable.record
  load site' hash' value' hvalue' := by
    rw [load?_record] at hvalue'
    split at hvalue'
    · next hkey =>
      obtain ⟨-, rfl, rfl⟩ := hkey
      exact hvalue.trans hvalue'
    · exact h.load site' hash' value' hvalue'

end TraceStore

/-- To add a result that is there changes nothing. -/
theorem ResultTable.add_of_some {S : ResultTable} {site : CallSite} {hash : String}
    {value : Value} (h : S site hash = some value) :
  S.add site hash value = S
  := by
  funext site' hash'
  rw [ResultTable.add]
  split
  · next hkey =>
    obtain ⟨rfl, rfl⟩ := hkey
    exact h.symm
  · rfl

/-- A new result only adds to a table. -/
theorem ResultTable.isWithin_add {S : ResultTable} {site : CallSite} {hash : String}
    {value : Value} (h : S site hash = none) :
  S.IsWithin (S.add site hash value)
  := by
  intro site' hash' value' hvalue'
  rw [ResultTable.add, if_neg]
  · exact hvalue'
  · rintro ⟨rfl, rfl⟩
    rw [h] at hvalue'
    cases hvalue'

/-- A result that was added is found. -/
theorem ResultTable.add_self {S : ResultTable} {site : CallSite} {hash : String}
    {value : Value} :
  S.add site hash value site hash = some value
  := if_pos ⟨rfl, rfl⟩

/-- The results grow by the one of a call, when it was made. -/
theorem ResultTable.Grows.add {sound : ResultTable → Prop} {inner stack : CallStack}
    {S S' : ResultTable} (h : Grows sound inner S S')
    (hstack : ∀ name ∈ stack.names, name ∈ inner.names) {site : CallSite} {hash : String}
    {value : Value} (hname : site.name ∉ stack.names) (hnone : S' site hash = none)
    (hsound : sound (S'.add site hash value)) :
  Grows sound stack S (S'.add site hash value)
  where
  isWithin := h.isWithin.trans (isWithin_add hnone)
  isSound := hsound
  stack site' hash' hname' := by
    rw [ResultTable.add, if_neg]
    · exact h.stack site' hash' (hstack _ hname')
    · rintro ⟨rfl, -⟩
      exact hname hname'

/-! ### Contexts of previews -/

namespace Context

/-- Whether a context is that of a preview of what is done in another. -/
structure Mirrors (c' c : Context) : Prop where
  mode : c'.mode = .preview
  hashVersion : c'.hashVersion = c.hashVersion
  toplevel : c'.toplevel = c.toplevel
  registry : c'.registry = c.registry
  types : c'.types = c.types
  stack : ∀ name ∈ c'.stack.names, name ∈ c.stack.names

variable {c' c : Context}

/-- Contexts that mirror each other do so when they look aside. -/
theorem Mirrors.lookAside (h : c'.Mirrors c) :
  c'.lookAside.Mirrors c.lookAside
  := { h with mode := rfl }

/-- Contexts that mirror each other do so in a call. -/
theorem Mirrors.inCall (h : c'.Mirrors c) (name : FunctionName) (id : NodeId) :
  (c'.inCall name id).Mirrors (c.inCall name id)
  where
  __ := h
  stack _ hname := List.mem_cons.mpr ((List.mem_cons.mp hname).imp_right (h.stack _))

/-- Contexts that mirror each other do so in another toplevel. -/
theorem Mirrors.inToplevel (h : c'.Mirrors c) (toplevel : ToplevelId) :
  (c'.inToplevel toplevel).Mirrors (c.inToplevel toplevel)
  := { h with toplevel := rfl }

/-- Contexts that mirror each other give the same sources. -/
theorem Mirrors.source (h : c'.Mirrors c) (id : NodeId) :
  c'.source id = c.source id
  := by
  rw [Context.source, Context.source, h.toplevel]

/-- Contexts that mirror each other call from the same places. -/
theorem Mirrors.site (h : c'.Mirrors c) (name : FunctionName) (id : NodeId) :
  c'.site name id = c.site name id
  := by
  rw [Context.site, Context.site, h.toplevel]

/-- Contexts that mirror each other hash arguments alike. -/
theorem Mirrors.argumentHash? (h : c'.Mirrors c) (args : List Value) :
  c'.argumentHash? args = c.argumentHash? args
  := by
  rw [Context.argumentHash?, Context.argumentHash?, h.hashVersion]

end Context

/-! ### Mirrored runs -/

namespace Run

variable {α β : Type} {names : FunctionName → Prop} {sound : ResultTable → Prop} {fuel : Nat}
  {c : Context} {w : World}

/-- Whether a preview ends with a value and a table of results, or is short of fuel. -/
def EndsWith (short : Prop) (value : α) (T : ResultTable) (ending : Outcome α × World) :
    Prop :=
  (short ∧ ending.1 = .outOfFuel) ∨ ∃ w', ending = (.done value, w') ∧ w'.store.Holds T

/-- Whether previews with some fuel mirror a run from a world: if its fuel suffices, it
has a value, and so do the previews. They are only short of fuel with less than the
run. -/
def IsMirrored (names : FunctionName → Prop) (sound : ResultTable → Prop) (fuel : Nat)
    (c : Context) (run : Run α) (mirror : Nat → Context → Run α) (w : World) : Prop :=
  ∀ S, sound S → w.store.IsWithin S → (run w).1 = .outOfFuel ∨
    ∃ value w' S', run w = (.done value, w') ∧ w'.store.IsWithin S'
      ∧ ResultTable.Grows sound c.stack S S'
      ∧ ∀ m c' T T' w₂, c'.Mirrors c → ResultTable.Moves names S S' T T' → w₂.store.Holds T →
        EndsWith (m < fuel) value T' (mirror m c' w₂)

theorem IsMirrored.done {value : α} {value' : Context → α}
    (h : ∀ c', c'.Mirrors c → value' c' = value) :
  IsMirrored names sound fuel c (pure value) (fun _ c' => pure (value' c')) w
  := by
  intro S hS hw
  refine .inr ⟨value, w, S, rfl, hw, .refl hS, ?_⟩
  intro m c' T T' w₂ hc' hmoves hT
  dsimp only
  rw [hmoves.same, h c' hc']
  exact .inr ⟨w₂, rfl, hT⟩

theorem IsMirrored.outOfFuel {mirror : Nat → Context → Run α} :
  IsMirrored names sound fuel c outOfFuel mirror w
  := fun _ _ _ => .inl rfl

/-- Only previews that mirror the context count. -/
theorem IsMirrored.congr {run : Run α} {mirror mirror' : Nat → Context → Run α}
    (h : IsMirrored names sound fuel c run mirror w)
    (hmirror : ∀ m c', c'.Mirrors c → mirror' m c' = mirror m c') :
  IsMirrored names sound fuel c run mirror' w
  := by
  intro S hS hw
  rcases h S hS hw with hfuel | ⟨value, w', S', hrun, hw', hgrows, hends⟩
  · exact .inl hfuel
  · refine .inr ⟨value, w', S', hrun, hw', hgrows, ?_⟩
    intro m c' T T' w₂ hc' hmoves hT
    rw [hmirror m c' hc']
    exact hends m c' T T' w₂ hc' hmoves hT

/-- One more unit of fuel for both. -/
theorem IsMirrored.succ {run : Run α} {mirror : Nat → Context → Run α}
    (hzero : ∀ c', mirror 0 c' = Run.outOfFuel)
    (h : IsMirrored names sound fuel c run (fun m c' => mirror (m + 1) c') w) :
  IsMirrored names sound (fuel + 1) c run mirror w
  := by
  intro S hS hw
  rcases h S hS hw with hfuel | ⟨value, w', S', hrun, hw', hgrows, hends⟩
  · exact .inl hfuel
  · refine .inr ⟨value, w', S', hrun, hw', hgrows, ?_⟩
    intro m c' T T' w₂ hc' hmoves hT
    cases m with
    | zero =>
      rw [hzero]
      exact .inl ⟨Nat.succ_pos fuel, rfl⟩
    | succ m =>
      exact (hends m c' T T' w₂ hc' hmoves hT).imp_left
        fun hshort => ⟨Nat.succ_lt_succ hshort.1, hshort.2⟩

/-- A run in a context that is made from the one at hand. -/
theorem IsMirrored.inside {run : Run α} {mirror : Nat → Context → Run α} {inner : Context}
    {enter : Context → Context} (h : IsMirrored names sound fuel inner run mirror w)
    (henter : ∀ c', c'.Mirrors c → (enter c').Mirrors inner)
    (hstack : ∀ name ∈ c.stack.names, name ∈ inner.stack.names) :
  IsMirrored names sound fuel c run (fun m c' => mirror m (enter c')) w
  := by
  intro S hS hw
  rcases h S hS hw with hfuel | ⟨value, w', S', hrun, hw', hgrows, hends⟩
  · exact .inl hfuel
  · refine .inr ⟨value, w', S', hrun, hw', ?_, ?_⟩
    · exact { hgrows with stack := fun site hash hname =>
                hgrows.stack site hash (hstack _ hname) }
    · intro m c' T T' w₂ hc' hmoves hT
      exact hends m (enter c') T T' w₂ (henter c' hc') hmoves hT

/-- A run lacks fuel if its beginning does. -/
theorem bind_of_outOfFuel {run : Run α} {next : α → Run β} (h : (run w).1 = .outOfFuel) :
  ((run >>= next) w).1 = .outOfFuel
  := by
  change (andThen run next w).1 = _
  rw [andThen]
  generalize run w = r at h
  obtain ⟨outcome, w'⟩ := r
  obtain rfl := h
  rfl

/-- Lack of fuel is not caught. -/
theorem caught_of_outOfFuel {run : Run α} (h : (run w).1 = .outOfFuel) :
  (caught run w).1 = .outOfFuel
  := by
  rw [Run.caught]
  generalize run w = r at h
  obtain ⟨outcome, w'⟩ := r
  obtain rfl := h
  rfl

theorem caught_of_done {run : Run α} {value : α} {w' : World}
    (h : run w = (.done value, w')) :
  caught run w = (.done (.ok value), w')
  := by
  rw [Run.caught, h]

/-- What a run and the next one fault with is caught one after the other. -/
theorem caught_bind {run : Run α} {next : α → Run β} :
  caught (run >>= next) = (do
    match ← caught run with
    | .ok value => caught (next value)
    | .error reason => pure (.error reason))
  := by
  funext w
  change caught (andThen run next) w = andThen (caught run) _ w
  rw [Run.caught, andThen, andThen, Run.caught]
  generalize run w = r
  obtain ⟨_ | _ | _, w'⟩ := r <;> rfl

/-- What ends with a value goes on with it. -/
theorem EndsWith.bind {run : Run α} {next : α → Run β} {short : Prop} {value : α}
    {value' : β} {T T' : ResultTable} {w : World} (hrun : EndsWith short value T (run w))
    (hnext : ∀ w', w'.store.Holds T → EndsWith short value' T' (next value w')) :
  EndsWith short value' T' ((run >>= next) w)
  := by
  rcases hrun with ⟨hshort, hfuel⟩ | ⟨w', hrun, hw'⟩
  · exact .inl ⟨hshort, bind_of_outOfFuel hfuel⟩
  · rw [bind_of_done hrun]
    exact hnext w' hw'

/-- Runs that are mirrored one after another are mirrored together. -/
theorem IsMirrored.bind {run : Run α} {mirror : Nat → Context → Run α} {next : α → Run β}
    {mirrorNext : α → Nat → Context → Run β}
    (hrun : IsMirrored names sound fuel c run mirror w)
    (hnext : ∀ value w', run w = (.done value, w') →
      IsMirrored names sound fuel c (next value) (mirrorNext value) w') :
  IsMirrored names sound fuel c (run >>= next)
    (fun m c' => mirror m c' >>= fun value => mirrorNext value m c') w
  := by
  intro S hS hw
  rcases hrun S hS hw with hfuel | ⟨value, w₁, S₁, hrun, hw₁, hgrows₁, hends₁⟩
  · exact .inl (bind_of_outOfFuel hfuel)
  · rw [bind_of_done hrun]
    rcases hnext value w₁ hrun S₁ hgrows₁.isSound hw₁ with
      hfuel | ⟨value', w₂, S₂, hrun', hw₂, hgrows₂, hends₂⟩
    · exact .inl hfuel
    · refine .inr ⟨value', w₂, S₂, hrun', hw₂, hgrows₁.trans hgrows₂, ?_⟩
      intro m c' T T' w hc' hmoves hT
      obtain ⟨T₁, hmoves₁, hmoves₂⟩ := hmoves.split hgrows₂.isWithin
      apply EndsWith.bind (hends₁ m c' T T₁ w hc' hmoves₁ hT)
      intro w' hw'
      exact hends₂ m c' T₁ T' w' hc' hmoves₂ hw'

/-- A mirrored run does not fault, so that nothing is caught. -/
theorem IsMirrored.caught {run : Run α} {mirror : Nat → Context → Run α}
    (h : IsMirrored names sound fuel c run mirror w) :
  IsMirrored names sound fuel c (caught run) (fun m c' => caught (mirror m c')) w
  := by
  intro S hS hw
  rcases h S hS hw with hfuel | ⟨value, w', S', hrun, hw', hgrows, hends⟩
  · exact .inl (caught_of_outOfFuel hfuel)
  · refine .inr ⟨.ok value, w', S', caught_of_done hrun, hw', hgrows, ?_⟩
    intro m c' T T' w₂ hc' hmoves hT
    rcases hends m c' T T' w₂ hc' hmoves hT with ⟨hshort, hfuel⟩ | ⟨w', hmirror, hw'⟩
    · exact .inl ⟨hshort, caught_of_outOfFuel hfuel⟩
    · exact .inr ⟨w', caught_of_done hmirror, hw'⟩

/-! ### Silent runs -/

/-- Whether a run has a value, if the store does not fail, and leaves the results alone. -/
def IsSilent (run : Run α) : Prop :=
  ∀ w, w.store.IsReliable →
    ∃ value w', run w = (.done value, w') ∧ w.store.IsLike w'.store

theorem IsSilent.done {value : α} :
  IsSilent (pure value)
  := fun w _ => ⟨value, w, rfl, .refl w.store⟩

/-- What follows a silent run silently is silent. -/
theorem IsSilent.bind {run : Run α} {next : α → Run β} (hrun : IsSilent run)
    (hnext : ∀ value, IsSilent (next value)) :
  IsSilent (run >>= next)
  := by
  intro w hw
  obtain ⟨value, w', hrun, hw'⟩ := hrun w hw
  obtain ⟨value', w'', hnext, hw''⟩ := hnext value w' (hw.like hw')
  refine ⟨value', w'', ?_, hw'.trans hw''⟩
  rw [bind_of_done hrun]
  exact hnext

/-- A report tells the store nothing about results. -/
theorem report_isSilent {executed : Bool} {id : NodeId} {value : Value} :
  IsSilent (report c executed id value)
  := by
  intro w hw
  let w' : World := { w with
    store := w.store.report executed id value
    log := (c, .report executed id value) :: w.log }
  have hfails : ¬ w'.store.failsAfter id = true := by
    rw [TraceStore.failsAfter_report, hw id]
    exact Bool.false_ne_true
  exact ⟨(), w', if_neg hfails, w.store.isLike_report executed id value⟩

/-- Entering a toplevel tells the store nothing about results. -/
theorem enter_isSilent {toplevel : ToplevelId} :
  IsSilent (enter c toplevel)
  := fun w _ => ⟨(), _, rfl, w.store.isLike_enter toplevel⟩

/-- Carrying out a built-in tells the store nothing about results. -/
theorem invoke_isSilent {f : Function} {args : List Value} :
  IsSilent (invoke c f args)
  := fun w _ => ⟨_, _, rfl, .refl w.store⟩

/-- The preview may report more than the run. -/
theorem IsMirrored.skipMirror {γ : Type} {run : Run α} {quiet : Context → Run γ}
    {mirror : Nat → Context → Run α} (h : IsMirrored names sound fuel c run mirror w)
    (hquiet : ∀ c', IsSilent (quiet c')) :
  IsMirrored names sound fuel c run (fun m c' => quiet c' >>= fun _ => mirror m c') w
  := by
  intro S hS hw
  rcases h S hS hw with hfuel | ⟨value, w', S', hrun, hw', hgrows, hends⟩
  · exact .inl hfuel
  · refine .inr ⟨value, w', S', hrun, hw', hgrows, ?_⟩
    intro m c' T T' w₂ hc' hmoves hT
    obtain ⟨told, w₃, hquiet, hlike⟩ := hquiet c' w₂ hT.isReliable
    dsimp only
    rw [bind_of_done hquiet]
    exact hends m c' T T' w₃ hc' hmoves (hT.like hlike)

/-- The run and the preview report in between. -/
theorem IsMirrored.skip {γ δ : Type} {quiet : Run γ} {quiet' : Context → Run δ}
    {next : γ → Run α} {mirror : Nat → Context → Run α} (hquiet : IsSilent quiet)
    (hquiet' : ∀ c', IsSilent (quiet' c'))
    (hnext : ∀ told w', quiet w = (.done told, w') →
      IsMirrored names sound fuel c (next told) mirror w') :
  IsMirrored names sound fuel c (quiet >>= next)
    (fun m c' => quiet' c' >>= fun _ => mirror m c') w
  := by
  apply IsMirrored.skipMirror _ hquiet'
  intro S hS hw
  obtain ⟨told, w', hrun, hlike⟩ := hquiet w hw.isReliable
  rw [bind_of_done hrun]
  exact hnext told w' hrun S hS (hw.like hlike)

/-! ### Results of other functions -/

/-- No results are found of functions of which none are kept. -/
theorem IsMirrored.loadIf {wanted : Bool} {wanted' : Context → Bool} {site : CallSite}
    {args : List Value}
    (hsound : ∀ S, sound S → S.IsOf names) (hname : ¬ names site.name) :
  IsMirrored names sound fuel c (loadIf wanted c site args)
    (fun _ c' => Run.loadIf (wanted' c') c' site args) w
  := by
  intro S hS hw
  have hnone : ∀ hash, w.store.load? site hash = none := by
    intro hash
    rw [Option.eq_none_iff_forall_ne_some]
    intro value hvalue
    have hfound := hw.load site hash value hvalue
    rw [hsound S hS site hash hname] at hfound
    cases hfound
  obtain ⟨w', hrun, hstore, -⟩ := loadIf_eq_none hnone
  refine .inr ⟨none, w', S, hrun, hstore ▸ hw, .refl hS, ?_⟩
  intro m c' T T' w₂ hc' hmoves hT
  have hnone : ∀ hash, w₂.store.load? site hash = none := fun hash =>
    (hT.load site hash).trans (hmoves.isOf (hsound S hS) site hash hname)
  obtain ⟨w₂', hmirror, hstore, -⟩ := loadIf_eq_none hnone
  rw [hmoves.same]
  exact .inr ⟨w₂', hmirror, hstore ▸ hT⟩

/-- A look-up of a function whose results are not recorded finds nothing in either run. -/
theorem IsMirrored.load {site : CallSite} {args : List Value}
    (hsound : ∀ S, sound S → S.IsOf names) (hname : ¬ names site.name) :
  IsMirrored names sound fuel c (load c site args) (fun _ c' => Run.load c' site args) w
  := by
  have h : IsMirrored names sound fuel c (Run.loadIf true c site args)
      (fun _ c' => Run.loadIf true c' site args) w := .loadIf hsound hname
  exact h

end Run

end LiveExpr
