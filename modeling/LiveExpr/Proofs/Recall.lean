import LiveExpr.Proofs.Mirroring

/-!
# Recorded results in previews

A preview takes up recorded results instead of calls. A table of results is sound if each
of them was recorded by a call with arguments of its hash, whose body has the result
whenever it is previewed again. So a run that carries out the body of a function is
mirrored by previews that take up its result, and those that do not know it learn it. Main
statement: `recalled_mirrored`.
-/

namespace LiveExpr

/-- The variables of the body of a function. -/
def Function.bodyScope (f : Function) (args : List Value) : Scope :=
  Fields.ofPairs ((f.parameters.map Parameter.name).zip args)

/-- Whether a context has the functions, types and hash version of another. -/
structure Context.IsBasedOn (base c : Context) : Prop where
  hashVersion : c.hashVersion = base.hashVersion
  registry : c.registry = base.registry
  types : c.types = base.types

theorem Context.IsBasedOn.inCall {base c : Context} (h : base.IsBasedOn c)
    (name : FunctionName) (id : NodeId) :
  base.IsBasedOn (c.inCall name id)
  := ⟨h.hashVersion, h.registry, h.types⟩

theorem Context.IsBasedOn.argumentHash? {base c : Context} (h : base.IsBasedOn c)
    (args : List Value) :
  c.argumentHash? args = base.argumentHash? args
  := by
  rw [Context.argumentHash?, Context.argumentHash?, h.hashVersion]

namespace Interpreter

/-! ### Recorded results -/

open Run (EndsWith IsMirrored)

variable {base : Context} {called : CallSite → List Value → Prop}

/-- Whether the result of a call is settled: the body of the function, previewed where
all results of a table are known, has this result and learns nothing. -/
def Settles (base : Context) (called : CallSite → List Value → Prop) (S : ResultTable)
    (site : CallSite) (hash : String) (result : Value) : Prop :=
  ∃ f origin toplevel body args value, Assoc.get? site.name base.registry = some f
    ∧ f.implementation = .written origin toplevel body
    ∧ called site args ∧ base.argumentHash? args = some hash ∧ value.offRail = result
    ∧ ∀ T, S.IsWithin T → T.IsOf base.registry.IsWritten → ∀ m w, w.store.Holds T →
      EndsWith True value T (eval m (base.inToplevel toplevel) (f.bodyScope args) body w)

/-- Whether a table has only settled results, and some world knows exactly those. -/
structure IsSound (base : Context) (called : CallSite → List Value → Prop)
    (S : ResultTable) : Prop where
  settles : ∀ site hash result, S site hash = some result →
    Settles base called S site hash result
  isHeld : ∃ w : World, w.store.Holds S

theorem Settles.mono {S S' : ResultTable} {site : CallSite} {hash : String} {result : Value}
    (h : Settles base called S site hash result) (hS : S.IsWithin S') :
  Settles base called S' site hash result
  := by
  obtain ⟨f, origin, toplevel, body, args, value, hf, hbody, hcalled, hhash, hresult,
    hends⟩ := h
  refine ⟨f, origin, toplevel, body, args, value, hf, hbody, hcalled, hhash, hresult, ?_⟩
  intro T hT
  exact hends T (hS.trans hT)

theorem IsSound.isOf {S : ResultTable} (h : IsSound base called S) :
  S.IsOf base.registry.IsWritten
  := by
  intro site hash hname
  rw [Option.eq_none_iff_forall_ne_some]
  intro result hresult
  obtain ⟨f, origin, toplevel, body, args, value, hf, hbody, -⟩ :=
    h.settles site hash result hresult
  apply hname
  refine ⟨f, hf, ?_⟩
  rw [Function.isBuiltin, hbody]

/-- What the proof needs to know of a program: previews start outside of all calls, calls
at one site are told apart by the hash of their arguments, functions are registered under
their names, and pure built-ins only look at their arguments. -/
structure IsSetting (base : Context) (called : CallSite → List Value → Prop) : Prop where
  mode : base.mode = .preview
  stack : base.stack = []
  distinct : ∀ site args args' hash, called site args → called site args' →
    base.argumentHash? args = some hash → base.argumentHash? args' = some hash →
    args = args'
  named : ∀ name f, Assoc.get? name base.registry = some f → f.name = name
  pure : ∀ name f b, Assoc.get? name base.registry = some f →
    f.implementation = .builtin b → f.previewability = .pure →
    ∀ args, Stdlib.comparesHiddenNaN f args = false →
      ∀ known known', b.run known args = b.run known' args

theorem IsSetting.mirrors (h : IsSetting base called) {c : Context} (hc : base.IsBasedOn c)
    (toplevel : ToplevelId) :
  (base.inToplevel toplevel).Mirrors (c.inToplevel toplevel)
  where
  mode := h.mode
  hashVersion := hc.hashVersion.symm
  toplevel := rfl
  registry := hc.registry.symm
  types := hc.types.symm
  stack name hname := by
    change name ∈ base.stack.names at hname
    rw [h.stack] at hname
    cases hname

/-- Whether previews mirror a run of the interpreter. -/
def MirroredAt (base : Context) (called : CallSite → List Value → Prop) {α : Type}
    (fuel : Nat) (c : Context) (run : Run α) (mirror : Nat → Context → Run α) (w : World) :
    Prop :=
  IsMirrored base.registry.IsWritten (IsSound base called) fuel c run mirror w

variable {fuel : Nat} {c : Context} {w : World}

/-! ### Bodies and recorded results -/

/-- A run whose result may be taken from the recorded ones, and is recorded. -/
def recalled (wanted : Bool) (c : Context) (site : CallSite) (args : List Value)
    (run : Run Value) : Run Value := do
  match ← Run.loadIf wanted c site args with
  | some result => do
    Run.record c site args result
    pure result
  | none => do
    let value ← run
    Run.record c site args value.offRail
    pure value.offRail

section Recalled

variable {wanted : Bool} {site : CallSite} {args : List Value} {hash : String}
  {run : Run Value} {value : Value} {w' : World} {T : ResultTable}

/-- Without a hash of the arguments nothing is recorded. -/
theorem recalled_of_unhashed (h : c.argumentHash? args = none) :
  recalled wanted c site args run = (do let value ← run; pure value.offRail)
  := by
  have hload : Run.loadIf wanted c site args = pure none := by
    unfold Run.loadIf Run.load
    rw [h]
    exact ite_self _
  have hrecord : ∀ value, Run.record c site args value = pure () := by
    intro value
    rw [Run.record, h]
    rfl
  simp only [recalled, hload, hrecord]
  rfl

theorem record_eq (h : c.argumentHash? args = some hash) :
  ∃ w', Run.record c site args value w = (.done (), w')
    ∧ w'.store = w.store.record site hash value
  := by
  rw [Run.record, h]
  exact ⟨_, rfl, rfl⟩

/-- A recorded result is taken up and recorded again. -/
theorem recalled_of_recorded (h : c.argumentHash? args = some hash)
    (hvalue : w.store.load? site hash = some value) :
  ∃ w', recalled true c site args run w = (.done value, w')
    ∧ w'.store = w.store.record site hash value
  := by
  have hload : ∃ w₁, Run.loadIf true c site args w = (.done (some value), w₁)
      ∧ w₁.store = w.store := by
    rw [Run.loadIf, if_pos rfl, Run.load, h]
    dsimp only
    rw [hvalue]
    exact ⟨_, rfl, rfl⟩
  obtain ⟨w₁, hload, hstore₁⟩ := hload
  obtain ⟨w₂, hrecord, hstore₂⟩ := record_eq (w := w₁) h
  refine ⟨w₂, ?_, hstore₁ ▸ hstore₂⟩
  rw [recalled, Run.bind_of_done hload]
  exact Run.bind_of_done hrecord

/-- Otherwise the run is done, and its result recorded. -/
theorem recalled_of_run (h : c.argumentHash? args = some hash) {w₁ : World}
    (hload : Run.loadIf wanted c site args w = (.done none, w₁))
    (hrun : run w₁ = (.done value, w')) :
  ∃ w'', recalled wanted c site args run w = (.done value.offRail, w'')
    ∧ w''.store = w'.store.record site hash value.offRail
  := by
  obtain ⟨w'', hrecord, hstore⟩ := record_eq (w := w') h
  refine ⟨w'', ?_, hstore⟩
  rw [recalled, Run.bind_of_done hload]
  dsimp only
  rw [Run.bind_of_done hrun]
  exact Run.bind_of_done hrecord

theorem recalled_of_outOfFuel {w₁ : World}
    (hload : Run.loadIf wanted c site args w = (.done none, w₁))
    (hrun : (run w₁).1 = .outOfFuel) :
  (recalled wanted c site args run w).1 = .outOfFuel
  := by
  rw [recalled, Run.bind_of_done hload]
  exact Run.bind_of_outOfFuel hrun

/-- What is looked for is found or missing. -/
theorem loadIf_cases (wanted : Bool) (site : CallSite) (w : World)
    (h : c.argumentHash? args = some hash) :
  (wanted = true ∧ ∃ value, w.store.load? site hash = some value)
    ∨ ∃ w₁, Run.loadIf wanted c site args w = (.done none, w₁) ∧ w₁.store = w.store
  := by
  cases wanted with
  | false => exact .inr ⟨w, rfl, rfl⟩
  | true =>
    cases hvalue : w.store.load? site hash with
    | some value => exact .inl ⟨rfl, value, rfl⟩
    | none =>
      right
      rw [Run.loadIf, if_pos rfl, Run.load, h]
      dsimp only
      rw [hvalue]
      exact ⟨_, rfl, rfl⟩

/-- A preview that knows the result takes it up and learns nothing. -/
theorem recalled_of_known {short : Prop} (h : c.argumentHash? args = some hash)
    (hw : w.store.Holds T) (hvalue : T site hash = some value) :
  EndsWith short value T (recalled true c site args run w)
  := by
  obtain ⟨w', hrecalled, hstore⟩ :=
    recalled_of_recorded h ((hw.load site hash).trans hvalue)
  refine .inr ⟨w', hrecalled, ?_⟩
  have hheld : (w.store.record site hash value).Holds (T.add site hash value) := hw.record
  rw [ResultTable.add_of_some hvalue, ← hstore] at hheld
  exact hheld

/-- So does one of a run that has learnt nothing and knew the result. -/
theorem recalled_of_moves {short : Prop} (h : c.argumentHash? args = some hash)
    {names : FunctionName → Prop} {S T' : ResultTable}
    (hmoves : ResultTable.Moves names S S T T') (hw : w.store.Holds T)
    (hvalue : S site hash = some value) :
  EndsWith short value T' (recalled true c site args run w)
  := by
  rw [hmoves.same]
  exact recalled_of_known h hw (hmoves.isWithin site hash value hvalue)

/-- A preview that does not know the result learns it. -/
theorem recalled_of_unknown {short : Prop} (h : c.argumentHash? args = some hash)
    {S : ResultTable} (hw : w.store.Holds S) (hnone : S site hash = none)
    (hrun : ∀ w₁, w₁.store.Holds S → EndsWith short value T (run w₁)) :
  EndsWith short value.offRail (T.add site hash value.offRail)
    (recalled true c site args run w)
  := by
  rcases loadIf_cases true site w h with
    ⟨-, found, hfound⟩ | ⟨w₁, hload, hstore⟩
  · rw [hw.load, hnone] at hfound
    cases hfound
  · rcases hrun w₁ (hstore ▸ hw) with ⟨hshort, hfuel⟩ | ⟨w', hrun, hw'⟩
    · exact .inl ⟨hshort, recalled_of_outOfFuel hload hfuel⟩
    · obtain ⟨w'', hrecalled, hstore⟩ := recalled_of_run h hload hrun
      exact .inr ⟨w'', hrecalled, hstore ▸ hw'.record⟩

end Recalled

variable {site : CallSite} {args : List Value} {hash : String} {f : Function}
  {origin : Origin} {toplevel : ToplevelId} {body : Expr}

/-- A recorded result is that of the body, which is previewed again without learning
anything. -/
theorem known_of_settles (hsetting : IsSetting base called) {S S₁ : ResultTable}
    (hS : IsSound base called S) (hf : Assoc.get? site.name base.registry = some f)
    (hbody : f.implementation = .written origin toplevel body) (hcalled : called site args)
    (hhash : base.argumentHash? args = some hash) {result value : Value}
    (hresult : S site hash = some result)
    (hends : ∀ w, w.store.Holds S → EndsWith False value S₁
      (eval fuel (base.inToplevel toplevel) (f.bodyScope args) body w)) :
  value.offRail = result ∧ S₁ = S
  := by
  obtain ⟨w, hw⟩ := hS.isHeld
  obtain ⟨f', origin', toplevel', body', args', value', hf', hbody', hcalled', hhash', hvalue',
    hsettles⟩ := hS.settles site hash result hresult
  obtain rfl : f = f' := Option.some.inj (hf.symm.trans hf')
  obtain ⟨-, rfl, rfl⟩ := Implementation.written.inj (hbody.symm.trans hbody')
  obtain rfl : args = args' :=
    hsetting.distinct site args args' hash hcalled hcalled' hhash hhash'
  rcases hends w hw with ⟨hshort, -⟩ | ⟨w₁, hrun, hw₁⟩
  · cases hshort
  · rcases hsettles S (.refl S) hS.isOf fuel w hw with ⟨-, hfuel⟩ | ⟨w₂, hrun', hw₂⟩
    · rw [hrun] at hfuel
      cases hfuel
    · rw [hrun] at hrun'
      obtain ⟨hvalue, rfl⟩ := Prod.mk.inj hrun'
      obtain rfl := Outcome.done.inj hvalue
      exact ⟨hvalue', hw₂.unique hw₁⟩

/-- The table with a settled result added is sound. -/
theorem isSound_add {S : ResultTable} (hS : IsSound base called S)
    (hnone : S site hash = none) (hf : Assoc.get? site.name base.registry = some f)
    (hbody : f.implementation = .written origin toplevel body) (hcalled : called site args)
    (hhash : base.argumentHash? args = some hash) {value : Value}
    (hends : ∀ T, S.IsWithin T → T.IsOf base.registry.IsWritten → ∀ m w, w.store.Holds T →
      EndsWith True value T (eval m (base.inToplevel toplevel) (f.bodyScope args) body w)) :
  IsSound base called (S.add site hash value.offRail)
  := by
  have hwithin : S.IsWithin (S.add site hash value.offRail) := ResultTable.isWithin_add hnone
  constructor
  · intro site' hash' result hresult
    rw [ResultTable.add] at hresult
    split at hresult
    · next hkey =>
      obtain ⟨rfl, rfl⟩ := hkey
      refine ⟨f, origin, toplevel, body, args, value, hf, hbody, hcalled, hhash,
        Option.some.inj hresult, ?_⟩
      intro T hT
      exact hends T (hwithin.trans hT)
    · exact (hS.settles site' hash' result hresult).mono hwithin
  · obtain ⟨w, hw⟩ := hS.isHeld
    exact ⟨{ w with store := w.store.record site hash value.offRail }, hw.record⟩

/-- Results are taken up where they are known and learnt where they are not. -/
theorem recalled_mirrored (hsetting : IsSetting base called) {wanted : Bool} {id : NodeId}
    (hbase : base.IsBasedOn c) (hf : Assoc.get? f.name base.registry = some f)
    (hbody : f.implementation = .written origin toplevel body)
    (hname : f.name ∉ c.stack.names) (hcalled : called (c.site f.name id) args)
    (hhash : base.argumentHash? args = some hash)
    (hrun : ∀ w₁, Run.loadIf wanted (c.inCall f.name id) (c.site f.name id) args w
        = (.done none, w₁) →
      MirroredAt base called fuel ((c.inCall f.name id).inToplevel toplevel)
        (eval fuel ((c.inCall f.name id).inToplevel toplevel) (f.bodyScope args) body)
        (fun m c' => eval m c' (f.bodyScope args) body) w₁) :
  MirroredAt base called fuel c
    (recalled wanted (c.inCall f.name id) (c.site f.name id) args
      (eval fuel ((c.inCall f.name id).inToplevel toplevel) (f.bodyScope args) body))
    (fun m c' => recalled true (c'.inCall f.name id) (c.site f.name id) args
      (eval m ((c'.inCall f.name id).inToplevel toplevel) (f.bodyScope args) body)) w
  := by
  intro S hS hw
  let site := c.site f.name id
  have hinner : (c.inCall f.name id).argumentHash? args = some hash :=
    ((hbase.inCall f.name id).argumentHash? args).trans hhash
  have hmirrorHash : ∀ c' : Context, c'.Mirrors c →
      (c'.inCall f.name id).argumentHash? args = some hash :=
    fun c' hc' => ((hc'.inCall f.name id).argumentHash? args).trans hinner
  rcases loadIf_cases wanted site w hinner with ⟨rfl, result, hresult⟩ | ⟨w₁, hload, hstore⟩
  · -- The run takes up a result itself.
    have hknown : S site hash = some result := hw.load site hash result hresult
    obtain ⟨w', hrecalled, hstore⟩ := recalled_of_recorded hinner hresult
    refine .inr ⟨result, w', S, hrecalled, hstore ▸ hw.record hknown, .refl hS, ?_⟩
    intro m c' T T' w₂ hc' hmoves hT
    exact recalled_of_moves (hmirrorHash c' hc') hmoves hT hknown
  · rcases hrun w₁ hload S hS (hstore ▸ hw) with
      hfuel | ⟨value, w₂, S₁, hrun, hw₂, hgrows, hends⟩
    · exact .inl (recalled_of_outOfFuel hload hfuel)
    · obtain ⟨w₃, hrecalled, hstore₃⟩ := recalled_of_run hinner hload hrun
      have hmirrors : (base.inToplevel toplevel).Mirrors
          ((c.inCall f.name id).inToplevel toplevel) :=
        hsetting.mirrors (hbase.inCall f.name id) toplevel
      cases hknown : S site hash with
      | some result =>
        -- Previews take up a result where the run does without.
        have hends' : ∀ w, w.store.Holds S → EndsWith False value S₁
            (eval fuel (base.inToplevel toplevel) (f.bodyScope args) body w) := fun w hw =>
          (hends fuel _ S S₁ w hmirrors .along hw).imp_left
            fun hshort => ⟨Nat.lt_irrefl fuel hshort.1, hshort.2⟩
        obtain ⟨rfl, rfl⟩ := known_of_settles hsetting hS hf hbody hcalled hhash hknown hends'
        refine .inr ⟨value.offRail, w₃, S₁, hrecalled, hstore₃ ▸ hw₂.record hknown,
          .refl hS, ?_⟩
        intro m c' T T' w₂ hc' hmoves hT
        exact recalled_of_moves (hmirrorHash c' hc') hmoves hT hknown
      | none =>
        -- Previews learn the result; the function is under way, so that nothing else did.
        have hnone : S₁ site hash = none :=
          (hgrows.stack site hash List.mem_cons_self).trans hknown
        have hwithin : S₁.IsWithin (S₁.add site hash value.offRail) :=
          ResultTable.isWithin_add hnone
        have hsound : IsSound base called (S₁.add site hash value.offRail) := by
          apply isSound_add hgrows.isSound hnone hf hbody hcalled hhash
          intro T hT hTof m w hw
          exact (hends m _ T T w hmirrors (.past hT hTof) hw).imp_left
            fun hshort => ⟨trivial, hshort.2⟩
        refine .inr ⟨value.offRail, w₃, S₁.add site hash value.offRail, hrecalled,
          hstore₃ ▸ (hw₂.mono hwithin).record ResultTable.add_self, ?_, ?_⟩
        · exact hgrows.add (fun _ => List.mem_cons_of_mem _) hname hnone hsound
        · intro m c' T T' w₂ hc' hmoves hT
          cases hmoves with
          | along =>
            apply recalled_of_unknown (hmirrorHash c' hc') hT hknown
            intro w₁ hw₁
            exact hends m _ S S₁ w₁ ((hc'.inCall f.name id).inToplevel toplevel) .along hw₁
          | past h =>
            exact recalled_of_known (hmirrorHash c' hc') hT
              (h site hash _ ResultTable.add_self)

end Interpreter

end LiveExpr
