import LiveExpr.Proofs.Frames
import LiveExpr.Proofs.Inhabitation
import LiveExpr.Proofs.Keeping
import LiveExpr.Stdlib

/-!
# Signatures

What a function of the standard library declares against what its built-in does: the
declared parameters take the arguments that the built-in takes, and the declared type of
the result takes what the built-in ends with, whatever the functions that it applies give.
Main statements: `Stdlib.checkCall_eq_nil_iff` and `Stdlib.contents_give`.
-/

namespace LiveExpr

/-! ### What parameters take -/

namespace Typing

variable {types : TypeTable} {value : Value}

/-- Every value has the type of anything. -/
theorem unify_any (types : TypeTable) (value : Value) :
  unify types value .any = []
  := (unify_eq_nil_iff value .any).mpr .any

/-- Of the values that are not fake, exactly the integers have their type. -/
theorem unify_int (h : value.isFake = false) :
  unify types value .int = [] ↔ ∃ n, value = .int n
  := by
  cases value <;> simp_all [unify, fits, Value.isFake]

/-- Of the values that are not fake, exactly the texts have their type. -/
theorem unify_str (h : value.isFake = false) :
  unify types value .str = [] ↔ ∃ text, value = .str text
  := by
  cases value <;> simp_all [unify, fits, Value.isFake]

/-- Of the values that are not fake, exactly the lists are lists of anything. -/
theorem unify_list (h : value.isFake = false) :
  unify types value (.list .any) = [] ↔ ∃ items, value = .list items
  := by
  have hitems (items : List Value) : unify types (.list items) (.list .any) = [] :=
    (unify_eq_nil_iff _ _).mpr (.list fun _ _ => .any)
  cases value with
  | list items => simp [hitems]
  | _ => simp_all [unify, fits, Value.isFake]

/-- Of the values that are not fake, exactly the records are dictionaries of anything. -/
theorem unify_dict (h : value.isFake = false) :
  unify types value (.dict .any) = [] ↔ ∃ fields, value = .record fields
  := by
  have hfields (fields : List (String × Value)) : unify types (.record fields) (.dict .any) = [] :=
    (unify_eq_nil_iff _ _).mpr (.dict fun _ _ => .any)
  cases value with
  | record fields => simp [hfields]
  | _ => simp_all [unify, fits, Value.isFake]

/-- Of the values that are not fake, those of a type of functions are what can be called; of
its parameters and its result nothing is asked. -/
theorem unify_function {parameters : List Ty} {result : Ty} (h : value.isFake = false) :
  unify types value (.function parameters result) = [] ↔ ∃ f, value.callable? = some f
  := by
  cases value <;> simp_all [unify, fits, Value.isFake, Value.callable?]

/-- Of the values that are not fake, exactly Nothing and Just are options of anything. -/
theorem unify_option (h : value.isFake = false) :
  unify types value (.option .any) = [] ↔ value = .nothing ∨ ∃ inner, value = .just inner
  := by
  cases value <;> simp_all [unify, fits, Value.isFake, unify_any]

/-- Of the values that are not fake, exactly Ok and Error are results of anything. -/
theorem unify_result (h : value.isFake = false) :
  unify types value (.result .any .any) = []
    ↔ (∃ inner, value = .ok inner) ∨ ∃ inner, value = .error inner
  := by
  cases value <;> simp_all [unify, fits, Value.isFake, unify_any]

/-- A call passes the check if its arguments do one after the other. -/
theorem checkCall_cons {name : String} {type : Ty} {parameters : List (String × Ty)}
    {args : List Value} :
  checkCall types ((name, type) :: parameters) (value :: args) = []
    ↔ unify types value type = [] ∧ checkCall types parameters args = []
  := by
  simp [checkCall]

end Typing

/-! ### How built-ins end -/

/-- Whether what a built-in ends with meets a predicate, whatever comes of what it
applies. -/
def BuiltinStep.Ends (p : Except BuiltinError Value → Prop) : BuiltinStep → Prop
  | .finish result => p result
  | .fail _ => True
  | .apply _ _ _ _ next => ∀ value, (next value).Ends p

/-- The steps of a built-in end as the built-in says, whatever the values that the functions
give it. -/
theorem Interpreter.runSteps_ends {p : Except BuiltinError Value → Prop} {fuel : Nat}
    {c : Context} {caller : NodeId} {step : BuiltinStep} (h : step.Ends p)
    {w w' : World} {result : Except BuiltinError Value}
    (hrun : runSteps fuel c caller step w = (.done result, w')) :
  p result
  := by
  induction fuel generalizing step w with
  | zero => cases hrun
  | succ fuel ih =>
    cases step with
    | finish _ =>
      cases hrun
      exact h
    | fail _ => cases hrun
    | apply f args position railUse next =>
      obtain ⟨value, _, -, hnext⟩ := Run.bind_eq_done hrun
      exact ih (h value) hnext

namespace Stdlib

open Typing

variable {types : TypeTable} {a b d : Value} {args : List Value}

/-! ### What built-ins take -/

/-- Whether a built-in that only looks at its arguments takes them. -/
def Takes (run : List Value → Except BuiltinError Value) (args : List Value) : Prop :=
  run args ≠ .error .wrongArguments

theorem takes_add :
  Takes add [a, b] ↔ (∃ n, a = .int n) ∧ ∃ n, b = .int n
  := by
  unfold Takes add
  split <;> simp_all

theorem takes_subtract :
  Takes subtract [a, b] ↔ (∃ n, a = .int n) ∧ ∃ n, b = .int n
  := by
  unfold Takes subtract
  split <;> simp_all

/-- Equality takes any two values. -/
theorem takes_equals {sharing : Sharing} :
  Takes (equals sharing) [a, b]
  := nofun

theorem takes_append :
  Takes append [a, b] ↔ (∃ text, a = .str text) ∧ ∃ text, b = .str text
  := by
  unfold Takes append
  split <;> simp_all

theorem takes_textLength :
  Takes textLength [a] ↔ ∃ text, a = .str text
  := by
  unfold Takes textLength
  split <;> simp_all

theorem takes_listLength :
  Takes listLength [a] ↔ ∃ items, a = .list items
  := by
  unfold Takes listLength
  split <;> simp_all

theorem takes_getOrNull :
  Takes getOrNull [a, b] ↔ (∃ fields, a = .record fields) ∧ ∃ key, b = .str key
  := by
  unfold Takes getOrNull
  split <;> simp_all

/-- A look-up takes a record and a text. -/
theorem takes_getOption :
  Takes getOption [a, b] ↔ (∃ fields, a = .record fields) ∧ ∃ key, b = .str key
  := by
  unfold Takes getOption
  split <;> simp_all

/-- An update takes a record and a text, and any value for it. -/
theorem takes_setKey :
  Takes setKey [a, b, d] ↔ (∃ fields, a = .record fields) ∧ ∃ key, b = .str key
  := by
  unfold Takes setKey
  split <;> simp_all

theorem takes_optionOr :
  Takes optionOr [a, b] ↔ a = .nothing ∨ ∃ value, a = .just value
  := by
  unfold Takes optionOr
  split <;> simp_all

theorem takes_resultOr :
  Takes resultOr [a, b] ↔ (∃ value, a = .ok value) ∨ ∃ value, a = .error value
  := by
  unfold Takes resultOr
  split <;> simp_all

/-- A map that has begun does not refuse its arguments. -/
theorem mapItems_ne {f : Callable} {results items : List Value} :
  mapItems f results items ≠ .finish (.error .wrongArguments)
  := by
  cases items <;> nofun

/-- A map takes a list and a function value, and nothing else. -/
theorem mapList_ne_iff :
  mapList [a, b] ≠ .finish (.error .wrongArguments)
    ↔ (∃ items, a = .list items) ∧ ∃ f, b.callable? = some f
  := by
  unfold mapList
  split
  · next items f heq =>
    obtain ⟨rfl, rfl, -⟩ : a = .list items ∧ b = f ∧ True := by simpa using heq
    cases hf : b.callable? with
    | none => simp
    | some f => simpa using mapItems_ne
  · simp_all

/-! ### What signatures take -/

/-- Whether the parameters that a built-in declares take what it takes itself. -/
def IsHonest (f : Function) : Prop :=
  ∀ b, f.implementation = .builtin b → ∀ (types : TypeTable) (known : BuiltinContext)
    (args : List Value), args.length = f.parameters.length →
      (∀ arg ∈ args, arg.isFake = false) →
      (checkCall types f.parameterTypes args = []
        ↔ b.run known args ≠ .finish (.error .wrongArguments))

variable {name : FunctionName} {parameters : List (String × Ty)} {p q r : String × Ty}
  {returnType : Ty} {description : String}
  {run : Sharing → List Value → Except BuiltinError Value}

/-- A built-in that only looks at its arguments is honest if the types of its parameters
take what it takes. -/
theorem isHonest_ofMemory
    (h : ∀ (types : TypeTable) (sharing : Sharing) (args : List Value),
      args.length = parameters.length → (∀ arg ∈ args, arg.isFake = false) →
      (checkCall types parameters args = [] ↔ Takes (run sharing) args)) :
  IsHonest (.ofMemory name parameters returnType description run)
  := by
  rintro _ ⟨⟩ types known args hlen hreal
  have hparameters : (Function.ofMemory name parameters returnType description
      run).parameterTypes = parameters := by
    rw [Function.parameterTypes, Function.ofMemory, List.map_map]
    exact List.map_id _
  have hlen : args.length = parameters.length := by
    simpa [Function.ofMemory] using hlen
  rw [hparameters, h types known.sharing args hlen hreal]
  simp [Takes]

/-- The types of two arguments that are not fake are checked one by one. -/
theorem checkCall_two {P : List Value → Prop}
    (hlen : args.length = 2) (hreal : ∀ arg ∈ args, arg.isFake = false)
    (h : ∀ a b : Value, a.isFake = false → b.isFake = false →
      (unify types a p.2 = [] ∧ unify types b q.2 = [] ↔ P [a, b])) :
  checkCall types [p, q] args = [] ↔ P args
  := by
  match args, hlen with
  | [a, b], _ =>
      rw [checkCall_cons, checkCall_cons, ← h a b (hreal a (by simp)) (hreal b (by simp))]
      simp [checkCall]

/-- A built-in of one argument is honest if the type of its parameter takes what it
takes. -/
theorem isHonest_one
    (h : ∀ types sharing (a : Value), a.isFake = false →
      (unify types a p.2 = [] ↔ Takes (run sharing) [a])) :
  IsHonest (.ofMemory name [p] returnType description run)
  := by
  apply isHonest_ofMemory
  intro types sharing args hlen hreal
  match args, hlen with
  | [a], _ =>
      rw [checkCall_cons, ← h types sharing a (hreal a (by simp))]
      simp [checkCall]

/-- A function of two arguments is honest if its built-in takes just what is of their types. -/
theorem isHonest_two
    (h : ∀ types sharing (a b : Value), a.isFake = false → b.isFake = false →
      (unify types a p.2 = [] ∧ unify types b q.2 = [] ↔ Takes (run sharing) [a, b])) :
  IsHonest (.ofMemory name [p, q] returnType description run)
  := by
  apply isHonest_ofMemory
  intro types sharing args hlen hreal
  exact checkCall_two hlen hreal (h types sharing)

/-- A function of three arguments is honest if its built-in takes just what is of their
types. -/
theorem isHonest_three
    (h : ∀ types sharing (a b d : Value), a.isFake = false → b.isFake = false →
      d.isFake = false →
      (unify types a p.2 = [] ∧ unify types b q.2 = [] ∧ unify types d r.2 = []
        ↔ Takes (run sharing) [a, b, d])) :
  IsHonest (.ofMemory name [p, q, r] returnType description run)
  := by
  apply isHonest_ofMemory
  intro types sharing args hlen hreal
  match args, hlen with
  | [a, b, d], _ =>
      rw [checkCall_cons, checkCall_cons, checkCall_cons,
        ← h types sharing a b d (hreal a (by simp)) (hreal b (by simp)) (hreal d (by simp))]
      simp [checkCall]

/-- Whether a function should no longer be used says nothing of what it takes. -/
theorem IsHonest.deprecated {f : Function} (h : IsHonest f) (deprecation : Deprecation) :
  IsHonest { f with deprecation }
  := h

/-- The operators take just what their signatures say. -/
theorem operators_honest :
  ∀ f ∈ operators, IsHonest f
  := by
  refine List.forall_mem_cons.mpr ⟨?_, List.forall_mem_cons.mpr ⟨?_,
    List.forall_mem_singleton.mpr ?_⟩⟩
  · apply isHonest_two
    intro types _ a b ha hb
    rw [unify_int ha, unify_int hb, takes_add]
  · apply isHonest_two
    intro types _ a b ha hb
    rw [unify_int ha, unify_int hb, takes_subtract]
  · apply isHonest_two
    intro types _ a b ha hb
    simp [unify_any, takes_equals]

/-- The functions on integers take just what their signatures say. -/
theorem integers_honest :
  ∀ f ∈ integers, IsHonest f
  := by
  refine List.forall_mem_singleton.mpr (isHonest_two ?_)
  intro types _ a b ha hb
  rw [unify_int ha, unify_int hb, takes_add]

/-- The functions on texts take just what their signatures say. -/
theorem texts_honest :
  ∀ f ∈ texts, IsHonest f
  := by
  refine List.forall_mem_cons.mpr ⟨?_, List.forall_mem_singleton.mpr ?_⟩
  · apply isHonest_two
    intro types _ a b ha hb
    rw [unify_str ha, unify_str hb, takes_append]
  · apply isHonest_one
    intro types _ a ha
    rw [unify_str ha, takes_textLength]

/-- The functions on lists take just what their signatures say. -/
theorem lists_honest :
  ∀ f ∈ lists, IsHonest f
  := by
  refine List.forall_mem_cons.mpr ⟨?_, List.forall_mem_singleton.mpr ?_⟩
  · rintro _ ⟨⟩ types known args hlen hreal
    apply checkCall_two hlen hreal
    intro a b ha hb
    rw [unify_list ha, unify_function hb, mapList_ne_iff]
  · apply isHonest_one
    intro types _ a ha
    rw [unify_list ha, takes_listLength]

/-- The functions on dictionaries take just what their signatures say. -/
theorem dictionaries_honest :
  ∀ f ∈ dictionaries, IsHonest f
  := by
  refine List.forall_mem_cons.mpr ⟨?_, List.forall_mem_cons.mpr ⟨?_,
    List.forall_mem_singleton.mpr ?_⟩⟩
  · refine (isHonest_two ?_).deprecated _
    intro types _ a b ha hb
    rw [anyDict, unify_dict ha, unify_str hb, takes_getOrNull]
  · apply isHonest_two
    intro types _ a b ha hb
    rw [anyDict, unify_dict ha, unify_str hb, takes_getOption]
  · apply isHonest_three
    intro types _ a b d ha hb hd
    rw [anyDict, unify_dict ha, unify_str hb, takes_setKey]
    simp [unify_any]

/-- The functions on options take just what their signatures say. -/
theorem options_honest :
  ∀ f ∈ options, IsHonest f
  := by
  refine List.forall_mem_singleton.mpr (isHonest_two ?_)
  intro types _ a b ha hb
  rw [unify_option ha, takes_optionOr]
  simp [unify_any]

/-- The functions on results take just what their signatures say. -/
theorem results_honest :
  ∀ f ∈ results, IsHonest f
  := by
  refine List.forall_mem_singleton.mpr (isHonest_two ?_)
  intro types _ a b ha hb
  rw [unify_result ha, takes_resultOr]
  simp [unify_any]

/-- The functions on dates take just what their signatures say. -/
theorem dates_honest :
  ∀ f ∈ dates, IsHonest f
  := by
  refine List.forall_mem_singleton.mpr ?_
  rintro _ ⟨⟩ types known args hlen hreal
  simp [checkCall, Function.parameterTypes, now]

/-- What every built-in of the library takes, its declared parameters take, and the other
way around. -/
theorem contents_honest :
  ∀ f ∈ contents, IsHonest f
  := by
  simp only [contents, List.forall_mem_append]
  exact ⟨⟨⟨⟨⟨⟨⟨operators_honest, integers_honest⟩, texts_honest⟩, lists_honest⟩,
    dictionaries_honest⟩, options_honest⟩, results_honest⟩, dates_honest⟩

/-- A map over items ends with a list. -/
theorem mapItems_ends {p : Except BuiltinError Value → Prop}
    (h : ∀ items, p (.ok (.ofItems items))) (f : Callable) (results items : List Value) :
  (mapItems f results items).Ends p
  := by
  induction items generalizing results with
  | nil => exact h results.reverse
  | cons item rest ih => exact fun result => ih (result :: results)

/-- A map ends with a list, or it was given something that it does not take. -/
theorem mapList_ends {p : Except BuiltinError Value → Prop}
    (h : ∀ items, p (.ok (.ofItems items)))
    (hwrong : mapList args = .finish (.error .wrongArguments) → p (.error .wrongArguments)) :
  (mapList args).Ends p
  := by
  unfold mapList at hwrong ⊢
  split
  · split
    · exact mapItems_ends h _ _ _
    · exact hwrong (by simp_all)
  · exact hwrong (by simp_all)

/-- A built-in of the library that takes its arguments does not refuse them later. -/
theorem ends_of_ne {f : Function} (hf : f ∈ contents) {b : Builtin}
    (hb : f.implementation = .builtin b) {known : BuiltinContext}
    (h : b.run known args ≠ .finish (.error .wrongArguments)) :
  (b.run known args).Ends (· ≠ .error .wrongArguments)
  := by
  rcases cases_of_mem hf with ⟨run, -, -, hrun⟩ | ⟨-, hrun⟩ | ⟨-, hrun⟩ | ⟨-, hrun⟩
  · cases hb.symm.trans hrun
    intro hwrong
    exact h (congrArg BuiltinStep.finish hwrong)
  · cases hb.symm.trans hrun
    intro hwrong
    exact h (congrArg BuiltinStep.finish hwrong)
  · cases hb.symm.trans hrun
    exact mapList_ends nofun fun hwrong => absurd hwrong h
  · cases hb.symm.trans hrun
    exact nofun

/-- A call passes the check of its arguments exactly if the built-in does not end by
refusing them. -/
theorem checkCall_eq_nil_iff {f : Function} (hf : f ∈ contents) {b : Builtin}
    (hb : f.implementation = .builtin b) (types : TypeTable) (known : BuiltinContext)
    (hlen : args.length = f.parameters.length) (hreal : ∀ arg ∈ args, arg.isFake = false)
    (fuel : Nat) (c : Context) (caller : NodeId) (w : World) :
  checkCall types f.parameterTypes args = []
    ↔ (Interpreter.runSteps (fuel + 1) c caller (b.run known args) w).1
        ≠ .done (.error .wrongArguments)
  := by
  rw [contents_honest f hf b hb types known args hlen hreal]
  constructor
  · intro h hrun
    exact Interpreter.runSteps_ends (ends_of_ne hf hb h) (Prod.ext hrun rfl) rfl
  · intro h hwrong
    apply h
    rw [hwrong]
    rfl

/-! ### What built-ins give -/

/-- Whether a type takes what a built-in ends with, as far as that is a value. -/
def Gives (type : Ty) : Except BuiltinError Value → Prop
  | .ok value | .error (.fake value) => ∀ types, unify types value type = []
  | .error _ => True

theorem gives_add :
  Gives .int (add args)
  := by
  unfold add
  split <;> simp [Gives, unify, fits]

theorem gives_subtract :
  Gives .int (subtract args)
  := by
  unfold subtract
  split <;> simp [Gives, unify, fits]

/-- Equality gives a boolean. -/
theorem gives_equals {sharing : Sharing} :
  Gives .bool (equals sharing args)
  := by
  unfold equals
  split <;> simp [Gives, unify, fits]

theorem gives_append :
  Gives .str (append args)
  := by
  unfold append
  split <;> simp [Gives, unify, fits, Value.ofText]

theorem gives_textLength :
  Gives .int (textLength args)
  := by
  unfold textLength
  split <;> simp [Gives, unify, fits]

theorem gives_listLength :
  Gives .int (listLength args)
  := by
  unfold listLength
  split <;> simp [Gives, unify, fits]

/-- Any result has the type of anything. -/
theorem gives_any (result : Except BuiltinError Value) :
  Gives .any result
  := by
  rcases result with (_ | _ | _) | _
  · trivial
  · trivial
  · exact fun types => unify_any types _
  · exact fun types => unify_any types _

/-- A look-up gives an option. -/
theorem gives_getOption :
  Gives (.option .any) (getOption args)
  := by
  unfold getOption
  split
  · next fields key =>
    intro types
    cases Fields.get? key fields with
    | none => simp [Value.ofOption, unify, fits]
    | some value => simp [Value.ofOption, unify, unify_any]
  · trivial

/-- An update gives a dictionary. -/
theorem gives_setKey :
  Gives anyDict (setKey args)
  := by
  unfold setKey
  split
  · exact fun types => (unify_eq_nil_iff _ _).mpr (.dict fun _ _ => .any)
  · trivial

/-- A list of any items, or the first of them that is on the error rail. -/
theorem gives_ofItems (items : List Value) :
  Gives (.list .any) (.ok (.ofItems items))
  := by
  intro types
  rw [unify_eq_nil_iff, Value.ofItems]
  split
  · next item hitem =>
    have hrail := List.find?_some hitem
    apply Inhabits.fake
    cases item <;> first | rfl | cases hrail
  · exact .list fun _ _ => .any

/-- The clock gives a date. -/
theorem gives_now (known : BuiltinContext) (args : List Value) :
  (now known args).Ends (Gives .date)
  := by
  simp [now, BuiltinStep.Ends, Gives, Value.ofMoment, unify, fits]

/-- A built-in of the library ends with values of its declared type. -/
theorem contents_give {f : Function} (hf : f ∈ contents) {b : Builtin}
    (hb : f.implementation = .builtin b) (known : BuiltinContext) (args : List Value) :
  (b.run known args).Ends (Gives f.returnType)
  := by
  simp only [contents, operators, integers, texts, lists, dictionaries, options, results,
    dates, List.mem_append, List.mem_cons, List.not_mem_nil, or_false] at hf
  rcases hf with (((((((rfl | rfl | rfl) | rfl) | rfl | rfl) | rfl | rfl) | rfl | rfl | rfl)
    | rfl) | rfl) | rfl
  all_goals cases hb
  · exact gives_add
  · exact gives_subtract
  · exact gives_equals
  · exact gives_add
  · exact gives_append
  · exact gives_textLength
  · exact mapList_ends gives_ofItems fun _ => trivial
  · exact gives_listLength
  · exact gives_any _
  · exact gives_getOption
  · exact gives_setKey
  · exact gives_any _
  · exact gives_any _
  · exact gives_now known args

end Stdlib

end LiveExpr
