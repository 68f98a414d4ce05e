import LiveExpr.Proofs.Invariance
import LiveExpr.Proofs.Kinds

/-!
# Well-formed values

Where control flow may stand in a value: never inside data, and on the error rail only
what can be put onto it. Evaluation among the standard library and functions that are
written in the language keeps values well formed, and with them the recorded results.
Main statement: `eval_wellFormed`.
-/

namespace LiveExpr

namespace Value

mutual

/-- Whether control flow stands only where it may, at every depth, the variables that
lambdas captured included. -/
def isWellFormed : Value → Bool
  | .list items => itemsAreWellFormed items
  | .record fields => pairsAreWellFormed isFake fields
  | .just value | .ok value | .error value => !value.isFake && isWellFormed value
  | .response _ _ body => isWellFormed body
  | .lambda _ scope _ => pairsAreWellFormed isErrorRail scope
  | .errorRail value => value.isRailPayload && isWellFormed value
  | _ => true

/-- Whether items of a list are well formed and not on the error rail. -/
def itemsAreWellFormed : List Value → Bool
  | [] => true
  | item :: rest => !item.isErrorRail && isWellFormed item && itemsAreWellFormed rest

/-- Whether the values of pairs are well formed and none is of an excluded sort. -/
def pairsAreWellFormed (excluded : Value → Bool) : List (String × Value) → Bool
  | [] => true
  | (_, value) :: rest =>
    !excluded value && isWellFormed value && pairsAreWellFormed excluded rest

end

attribute [local simp] isWellFormed itemsAreWellFormed pairsAreWellFormed

/-- What a variable may be bound to: a well-formed value that is not on the error rail. -/
def isBindable (value : Value) : Bool :=
  value.isWellFormed && !value.isErrorRail

theorem itemsAreWellFormed_iff {items : List Value} :
  itemsAreWellFormed items = true
    ↔ ∀ item ∈ items, item.isWellFormed = true ∧ item.isErrorRail = false
  := by
  induction items with
  | nil => simp
  | cons item rest ih => simp [ih, and_comm]

theorem pairsAreWellFormed_iff {excluded : Value → Bool} {pairs : List (String × Value)} :
  pairsAreWellFormed excluded pairs = true
    ↔ Fields.All (fun value => value.isWellFormed = true ∧ excluded value = false) pairs
  := by
  induction pairs with
  | nil => simp [Fields.All]
  | cons pair rest ih =>
    rw [Fields.All] at ih ⊢
    simp [ih, and_comm]

/-! ### Rules -/

/-- Whether control flow stands directly in a value only where it may. -/
def IsWellBuilt : Value → Prop
  | .list items => ∀ item ∈ items, item.isErrorRail = false
  | .record fields => Fields.All (fun value => value.isFake = false) fields
  | .just value | .ok value | .error value => value.isFake = false
  | .lambda _ scope _ => Fields.All (fun value => value.isErrorRail = false) scope
  | .errorRail value => value.isRailPayload = true
  | _ => True

theorem allowsBuilding_isWellBuilt :
  AllowsBuilding IsWellBuilt
  where
  plain {value} hatom _ _ := by cases value <;> trivial
  list h := h
  record h := h
  just h := h
  ok h := h
  error h := h
  rail h := h
  option {fields _ _} hrecord hvalue := by
    have hfields : Fields.All (fun value : Value => value.isFake = false) fields := hrecord
    exact hfields.get? hvalue
  insert {fields _ _} hrecord hvalue := by
    have hfields : Fields.All (fun value : Value => value.isFake = false) fields := hrecord
    exact hfields.insert hvalue

theorem isWellFormed_iff_parts {value : Value} :
  value.isWellFormed = true
    ↔ IsWellBuilt value ∧ ∀ part ∈ value.parts, part.isWellFormed = true
  := by
  cases value with
  | list items => simp [itemsAreWellFormed_iff, IsWellBuilt, parts, forall₂_and, and_comm]
  | record fields =>
    rw [isWellFormed, pairsAreWellFormed_iff, parts, forall_snd, IsWellBuilt]
    simp [Fields.All, forall₂_and, and_comm]
  | lambda parameters fields body =>
    rw [isWellFormed, pairsAreWellFormed_iff, parts, forall_snd, IsWellBuilt]
    simp [Fields.All, forall₂_and, and_comm]
  | _ => simp [IsWellBuilt, parts]

/-- A value is well formed if control flow stands only where it may at every depth. -/
theorem isWellFormed_iff {value : Value} :
  value.isWellFormed = true ↔ value.Every IsWellBuilt
  := by
  induction value using induction_parts with
  | step value ih =>
    rw [isWellFormed_iff_parts, every_iff]
    exact and_congr_right fun _ => forall₂_congr ih

theorem isWellFormed_iff_every :
  (fun value : Value => value.isWellFormed = true) = Every IsWellBuilt
  := funext fun _ => propext isWellFormed_iff

end Value

namespace Interpreter

open Value

/-- Well-formed values are closed under what the language does with values. -/
theorem closedKind_wellFormed :
  ClosedKind (fun value => value.isWellFormed = true) (fun value => value.isBindable = true)
  := by
  have h : ClosedValues (fun value => value.isWellFormed = true)
      (fun value => value.isWellFormed = true) fun _ _ => True := by
    rw [isWellFormed_iff_every]
    exact allowsBuilding_isWellBuilt.closedValues (fun _ => trivial) fun _ => trivial
  exact {
    atom {value} hatom := by cases value <;> first | rfl | cases hatom
    ofItems := h.ofItems
    ofPairs := h.ofPairs
    field := h.field
    just := h.just
    ok := h.ok
    error := h.error
    payload := h.payload
    toRail {source value} hvalue := by
      rw [isWellFormed_iff] at hvalue ⊢
      exact allowsBuilding_isWellBuilt.every_toRail (fun _ => trivial) hvalue
    offRail := h.offRail
    lambda hscope := by
      rw [isWellFormed, pairsAreWellFormed_iff]
      exact hscope.mono fun value hv => by simpa [isBindable] using hv
    captured hlambda := by
      rw [isWellFormed, pairsAreWellFormed_iff] at hlambda
      exact hlambda.mono fun value hv => by simpa [isBindable] using hv
    bind hv hrail := by simp [isBindable, hv, hrail]
    look hv := by simp_all [isBindable] }

/-- The built-ins of the standard library stay among well-formed values. -/
theorem contents_wellFormed {f : Function} (hf : f ∈ Stdlib.contents) {b : Builtin}
    (hb : f.implementation = .builtin b) {known : BuiltinContext} {args : List Value}
    (hargs : ∀ arg ∈ args, arg.isWellFormed = true)
    (hreal : ∀ arg ∈ args, arg.isFake = false) :
  (b.run known args).Within (fun value => value.isWellFormed = true)
    fun value => value.isBindable = true
  := by
  apply closedKind_wellFormed.within
  rw [isWellFormed_iff_every]
  apply allowsBuilding_isWellBuilt.contents_stay hf hb _ hreal
  exact fun arg harg => isWellFormed_iff.mp (hargs arg harg)

end Interpreter

/-! ### Evaluation -/

/-- Whether all results that a store gives back are well formed. -/
def TraceStore.HoldsWellFormed (store : TraceStore) : Prop :=
  ∀ site hash value, store.load? site hash = some value → value.isWellFormed = true

namespace Interpreter

/-- Among the standard library and functions written in the language, evaluation keeps the
recorded results well formed. -/
theorem stable_wellFormed {fs : List Function} (hfs : ∀ f ∈ fs, f.isBuiltin = false) :
  Stable (fun c => c.registry = Stdlib.registry.addAll fs)
    (fun value => value.isWellFormed = true) (fun value => value.isBindable = true)
    (fun w => w.store.HoldsWellFormed) True
  where
  toClosedKind := closedKind_wellFormed
  lookAside hc := hc
  inCall hc := hc
  inToplevel hc _ _ := hc
  builtin hc hf hb hargs hreal := by
    rw [hc] at hf
    exact contents_wellFormed (Stdlib.mem_contents_of_builtin hfs hf hb) hb hargs hreal
  report _ _ := Run.report_recalls
  enter _ := Run.enter_recalls
  load _ := Run.load_recalls
  record _ _ hvalue := Run.record_recalls hvalue
  invoke _ _ := Run.invoke_recalls

/-- Evaluation in a scope of well-formed values that are not on the error rail, with
well-formed recorded results, ends with a well-formed value and leaves well-formed
recorded results behind. -/
theorem eval_wellFormed {fs : List Function} (hfs : ∀ f ∈ fs, f.isBuiltin = false)
    {c : Context} (hc : c.registry = Stdlib.registry.addAll fs) {scope : Scope}
    (hscope : scope.All fun value => value.isBindable = true) {w w' : World}
    (hstore : w.store.HoldsWellFormed) {fuel : Nat} {e : Expr} {value : Value}
    (hrun : eval fuel c scope e w = (.done value, w')) :
  value.isWellFormed = true ∧ w'.store.HoldsWellFormed
  := by
  obtain ⟨hstore', hvalue⟩ := ((stable_wellFormed hfs).kept fuel).eval e hc hscope w hstore
  rw [hrun] at hstore' hvalue
  exact ⟨hvalue, hstore'⟩

/-- A list of a value that is missing in a dictionary, and a number. -/
def missingKey : Expr :=
  .list 1 [
    .apply 2 (.functionValue 3 (.stdlib "Dict" "get" 2)) [.record 4 [], .string 5 "a"]
      .notInPipe .rail,
    .integer 6 1]

/-- A key that is missing puts the list around it on the error rail. -/
theorem eval_wellFormed_missingKey :
  (eval 20 (.start .real 0 0 (Stdlib.registry.addAll []) []) [] missingKey
      (.fresh ⟨0, 0⟩)).1 = .done (.errorRail .nothing)
    ∧ (Value.errorRail .nothing).isWellFormed = true
  := by
  constructor
  · rfl
  · have hfs : ∀ f ∈ ([] : List Function), f.isBuiltin = false := nofun
    have hstore : (World.fresh ⟨0, 0⟩).store.HoldsWellFormed := by rintro _ _ _ ⟨⟩
    have h := @eval_wellFormed [] hfs (.start .real 0 0 (Stdlib.registry.addAll []) []) rfl
      [] Fields.All.nil (.fresh ⟨0, 0⟩) _ hstore 20 missingKey _ (Prod.ext rfl rfl)
    exact h.1

end Interpreter

end LiveExpr
