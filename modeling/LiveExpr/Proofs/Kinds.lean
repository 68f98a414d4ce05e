import LiveExpr.Proofs.Regime
import LiveExpr.Stdlib

/-!
# Kinds of values

A rule for values holds of a value at every depth if it holds of all that stands in it. If
the rule allows what the language builds of values that obey it, then evaluation and the
standard library stay among the values that obey it at every depth. Main statements:
`AllowsBuilding.closedValues` and `AllowsBuilding.contents_stay`.
-/

namespace LiveExpr

namespace Value

/-- Whether a value is one that the error rail carries. -/
def isRailPayload : Value → Bool
  | .nothing | .error _ | .incomplete _ | .failure _ _ => true
  | _ => false

/-- Whether a rule for values allows what the language and its library build of values. -/
structure AllowsBuilding (p : Value → Prop) : Prop where
  plain : ∀ {value}, value.isAtom = true → value.isFake = false → value.callable? = none →
    p value
  list : ∀ {items : List Value}, (∀ item ∈ items, item.isErrorRail = false) → p (.list items)
  record : ∀ {fields}, Fields.All (fun value => value.isFake = false) fields →
    p (.record fields)
  just : ∀ {value}, value.isFake = false → p (.just value)
  ok : ∀ {value}, value.isFake = false → p (.ok value)
  error : ∀ {value}, value.isFake = false → p (.error value)
  rail : ∀ {value}, value.isRailPayload = true → p (.errorRail value)
  option : ∀ {fields name value}, p (.record fields) → Fields.get? name fields = some value →
    p (.just value)
  insert : ∀ {fields name value}, p (.record fields) → value.isFake = false →
    p (.record (Fields.insert name value fields))

variable {p : Value → Prop}

theorem every_of_isAtom {value : Value} (hatom : value.isAtom = true) (h : p value) :
  value.Every p
  := by
  have hparts : value.parts = [] := by cases value <;> first | rfl | cases hatom
  rw [every_iff, hparts]
  exact ⟨h, List.forall_mem_nil _⟩

theorem every_list {items : List Value} :
  (Value.list items).Every p ↔ p (.list items) ∧ ∀ item ∈ items, item.Every p
  := every_iff

theorem forall_snd {α : Type} {q : Value → Prop} {pairs : List (α × Value)} :
  (∀ value ∈ pairs.map Prod.snd, q value) ↔ ∀ pair ∈ pairs, q pair.2
  := by
  simp only [List.mem_map, forall_exists_index, and_imp, forall_apply_eq_imp_iff₂]

theorem every_record {fields : List (String × Value)} :
  (Value.record fields).Every p ↔ p (.record fields) ∧ Fields.All (Every p) fields
  := by
  rw [every_iff, parts, forall_snd]
  rfl

theorem every_lambda {parameters : List (NodeId × String)} {scope : Scope} {body : Expr} :
  (Value.lambda parameters scope body).Every p
    ↔ p (.lambda parameters scope body) ∧ Fields.All (Every p) scope
  := by
  rw [every_iff, parts, forall_snd]
  rfl

theorem every_just {value : Value} :
  (Value.just value).Every p ↔ p (.just value) ∧ value.Every p
  := by
  rw [every_iff, parts, List.forall_mem_singleton]

theorem every_ok {value : Value} :
  (Value.ok value).Every p ↔ p (.ok value) ∧ value.Every p
  := by
  rw [every_iff, parts, List.forall_mem_singleton]

theorem every_error {value : Value} :
  (Value.error value).Every p ↔ p (.error value) ∧ value.Every p
  := by
  rw [every_iff, parts, List.forall_mem_singleton]

theorem every_errorRail {value : Value} :
  (Value.errorRail value).Every p ↔ p (.errorRail value) ∧ value.Every p
  := by
  rw [every_iff, parts, List.forall_mem_singleton]

namespace AllowsBuilding

/-! ### The language -/

theorem every_plain (h : AllowsBuilding p) {value : Value} (hatom : value.isAtom = true)
    (hfake : value.isFake = false) (hcallable : value.callable? = none) :
  value.Every p
  := every_of_isAtom hatom (h.plain hatom hfake hcallable)

theorem every_ofItems (h : AllowsBuilding p) {items : List Value}
    (hitems : ∀ item ∈ items, item.Every p) :
  (ofItems items).Every p
  := by
  unfold ofItems
  split
  · next item hitem => exact hitems item (List.mem_of_find?_eq_some hitem)
  · next hnone =>
    refine every_list.mpr ⟨h.list fun item hitem => ?_, hitems⟩
    simpa using List.find?_eq_none.mp hnone item hitem

theorem every_ofPairs (h : AllowsBuilding p) {pairs : List (String × Value)}
    (hpairs : ∀ pair ∈ pairs, pair.2.Every p) :
  (ofPairs pairs).Every p
  := by
  unfold ofPairs
  split
  · next name value hpair => exact hpairs (name, value) (List.mem_of_find?_eq_some hpair)
  · next hnone =>
    refine every_record.mpr ⟨h.record (.ofPairs fun pair hpair => ?_), .ofPairs hpairs⟩
    simpa using List.find?_eq_none.mp hnone pair hpair

/-- A constructor is put around a payload unless the payload is fake. -/
theorem every_wrap {constructor : Value → Value} {value : Value}
    (hconstructor : value.isFake = false → (constructor value).Every p)
    (hvalue : value.Every p) :
  (Interpreter.wrap constructor value).Every p
  := by
  unfold Interpreter.wrap
  split
  · exact hvalue
  · next hreal => exact hconstructor (by simpa using hreal)

theorem every_payload {name : String} {value inner : Value} (hvalue : value.Every p)
    (hpayload : Matching.payload? name value = some inner) :
  inner.Every p
  := by
  unfold Matching.payload? at hpayload
  split at hpayload
  · obtain rfl := Option.some.inj hpayload
    exact (every_just.mp hvalue).2
  · obtain rfl := Option.some.inj hpayload
    exact (every_ok.mp hvalue).2
  · obtain rfl := Option.some.inj hpayload
    exact (every_error.mp hvalue).2
  · cases hpayload

theorem every_toRail (h : AllowsBuilding p) {source : Source} {value : Value}
    (hfailure : ∀ message, p (.failure source message)) (hvalue : value.Every p) :
  (Interpreter.toRail source value).Every p
  := by
  unfold Interpreter.toRail
  split
  · exact (every_just.mp hvalue).2
  · exact (every_ok.mp hvalue).2
  · exact every_errorRail.mpr ⟨h.rail rfl, hvalue⟩
  · exact every_errorRail.mpr ⟨h.rail rfl, hvalue⟩
  · exact every_errorRail.mpr ⟨h.rail rfl, hvalue⟩
  · exact every_errorRail.mpr ⟨h.rail rfl, hvalue⟩
  · exact hvalue
  · exact every_of_isAtom rfl (hfailure _)

theorem every_offRail {value : Value} (hvalue : value.Every p) :
  value.offRail.Every p
  := by
  unfold offRail
  split
  · exact (every_errorRail.mp hvalue).2
  · exact hvalue

/-- The values that obey a rule at every depth are closed under what code does with values,
if the rule allows the fake values that the code makes. -/
theorem closedValues (h : AllowsBuilding p) {place : ToplevelId → NodeId → Prop}
    (hincomplete : ∀ {toplevel id}, place toplevel id → p (.incomplete (.node toplevel id)))
    (hfailure : ∀ {toplevel id message}, place toplevel id →
      p (.failure (.node toplevel id) message)) :
  Interpreter.ClosedValues (Every p) (Every p) place
  where
  plain := h.every_plain
  incomplete hplace := every_of_isAtom rfl (hincomplete hplace)
  failure hplace := every_of_isAtom rfl (hfailure hplace)
  ofItems := h.every_ofItems
  ofPairs := h.every_ofPairs
  field hrecord hvalue := (every_record.mp hrecord).2.get? hvalue
  just hvalue := every_wrap (fun hreal => every_just.mpr ⟨h.just hreal, hvalue⟩) hvalue
  ok hvalue := every_wrap (fun hreal => every_ok.mpr ⟨h.ok hreal, hvalue⟩) hvalue
  error hvalue := every_wrap (fun hreal => every_error.mpr ⟨h.error hreal, hvalue⟩) hvalue
  payload := every_payload
  toRail hplace := h.every_toRail fun _ => hfailure hplace
  offRail := every_offRail
  bind hvalue _ := hvalue
  look hvalue := hvalue

/-! ### The standard library -/

/-- What operators and counts give has no parts. -/
theorem plain_stays (h : AllowsBuilding p) {run : List Value → Except BuiltinError Value}
    (hrun : run ∈ [Stdlib.add, Stdlib.subtract, Stdlib.append, Stdlib.textLength,
      Stdlib.listLength]) (args : List Value) :
  (BuiltinStep.finish (run args)).Stays (Every p)
  := by
  simp only [List.mem_cons, List.not_mem_nil, or_false] at hrun
  rcases hrun with rfl | rfl | rfl | rfl | rfl
  all_goals
    simp only [Stdlib.add, Stdlib.subtract, Stdlib.append, Stdlib.textLength,
      Stdlib.listLength]
    split
    · exact h.every_plain rfl rfl rfl
    · trivial

theorem equals_stays (h : AllowsBuilding p) (sharing : Sharing) (args : List Value) :
  (BuiltinStep.finish (Stdlib.equals sharing args)).Stays (Every p)
  := by
  unfold Stdlib.equals
  split
  · exact h.every_plain rfl rfl rfl
  · trivial

theorem getOrNull_stays (h : AllowsBuilding p) {args : List Value}
    (hargs : ∀ arg ∈ args, arg.Every p) :
  (BuiltinStep.finish (Stdlib.getOrNull args)).Stays (Every p)
  := by
  unfold Stdlib.getOrNull
  split
  · next fields key =>
    have hrecord := every_record.mp (hargs _ List.mem_cons_self)
    cases hget : Fields.get? key fields with
    | none => exact h.every_plain rfl rfl rfl
    | some value => exact hrecord.2.get? hget
  · trivial

theorem getOption_stays (h : AllowsBuilding p) {args : List Value}
    (hargs : ∀ arg ∈ args, arg.Every p) :
  (BuiltinStep.finish (Stdlib.getOption args)).Stays (Every p)
  := by
  unfold Stdlib.getOption
  split
  · next fields key =>
    have hrecord := every_record.mp (hargs _ List.mem_cons_self)
    cases hget : Fields.get? key fields with
    | none => exact h.every_plain rfl rfl rfl
    | some value => exact every_just.mpr ⟨h.option hrecord.1 hget, hrecord.2.get? hget⟩
  · trivial

/-- The value that is put into a dictionary is an argument, so it is not fake. -/
theorem setKey_stays (h : AllowsBuilding p) {args : List Value}
    (hargs : ∀ arg ∈ args, arg.Every p) (hreal : ∀ arg ∈ args, arg.isFake = false) :
  (BuiltinStep.finish (Stdlib.setKey args)).Stays (Every p)
  := by
  unfold Stdlib.setKey
  split
  · next fields key value =>
    have hrecord := every_record.mp (hargs (.record fields) (by simp))
    have hvalue := hargs value (by simp)
    have hplain := hreal value (by simp)
    exact every_record.mpr ⟨h.insert hrecord.1 hplain, hrecord.2.insert hvalue⟩
  · trivial

theorem optionOr_stays {args : List Value} (hargs : ∀ arg ∈ args, arg.Every p) :
  (BuiltinStep.finish (Stdlib.optionOr args)).Stays (Every p)
  := by
  unfold Stdlib.optionOr
  split
  · next value default => exact (every_just.mp (hargs (.just value) (by simp))).2
  · next default => exact hargs default (by simp)
  · trivial

theorem resultOr_stays {args : List Value} (hargs : ∀ arg ∈ args, arg.Every p) :
  (BuiltinStep.finish (Stdlib.resultOr args)).Stays (Every p)
  := by
  unfold Stdlib.resultOr
  split
  · next value default => exact (every_ok.mp (hargs (.ok value) (by simp))).2
  · next value default => exact hargs default (by simp)
  · trivial

/-- The results of the function are collected as the items of a list are, so that one on
the error rail stands for all of them. -/
theorem mapItems_stays (h : AllowsBuilding p) {f : Callable} (hf : f.value.Every p)
    {results items : List Value} (hresults : ∀ result ∈ results, result.Every p)
    (hitems : ∀ item ∈ items, item.Every p) :
  (Stdlib.mapItems f results items).Stays (Every p)
  := by
  induction items generalizing results with
  | nil =>
    apply h.every_ofItems
    intro result hresult
    exact hresults result (List.mem_reverse.mp hresult)
  | cons item rest ih =>
    obtain ⟨hitem, hrest⟩ := List.forall_mem_cons.mp hitems
    refine ⟨hf, List.forall_mem_singleton.mpr hitem, fun result hresult => ?_⟩
    exact ih (List.forall_mem_cons.mpr ⟨hresult, hresults⟩) hrest

theorem mapList_stays (h : AllowsBuilding p) {args : List Value}
    (hargs : ∀ arg ∈ args, arg.Every p) :
  (Stdlib.mapList args).Stays (Every p)
  := by
  unfold Stdlib.mapList
  split
  · next items value =>
    split
    · next f hf =>
      have hlist := every_list.mp (hargs (.list items) (by simp))
      have hvalue := hargs value (by simp)
      rw [← Callable.value_of_callable? hf] at hvalue
      exact h.mapItems_stays hvalue (List.forall_mem_nil _) hlist.2
    · trivial
  · trivial

/-- The built-ins of the standard library stay among the values that obey a rule at every
depth. -/
theorem contents_stay (h : AllowsBuilding p) {f : Function} (hf : f ∈ Stdlib.contents)
    {b : Builtin} (hb : f.implementation = .builtin b) {known : BuiltinContext}
    {args : List Value} (hargs : ∀ arg ∈ args, arg.Every p)
    (hreal : ∀ arg ∈ args, arg.isFake = false) :
  (b.run known args).Stays (Every p)
  := by
  rcases Stdlib.cases_of_mem hf with ⟨run, hrun, -, himplementation⟩ | ⟨-, himplementation⟩
    | ⟨-, himplementation⟩ | ⟨-, himplementation⟩
  all_goals
    rw [himplementation] at hb
    cases hb
  · simp only [Stdlib.inspections, List.mem_cons, List.not_mem_nil, or_false] at hrun
    rcases hrun with rfl | rfl | rfl | rfl | rfl | rfl | rfl | rfl | rfl | rfl
    · exact h.plain_stays (by simp) args
    · exact h.plain_stays (by simp) args
    · exact h.plain_stays (by simp) args
    · exact h.plain_stays (by simp) args
    · exact h.plain_stays (by simp) args
    · exact h.getOrNull_stays hargs
    · exact h.getOption_stays hargs
    · exact h.setKey_stays hargs hreal
    · exact optionOr_stays hargs
    · exact resultOr_stays hargs
  · exact h.equals_stays _ args
  · exact h.mapList_stays hargs
  · exact h.every_plain rfl rfl rfl

end AllowsBuilding

end Value

end LiveExpr
