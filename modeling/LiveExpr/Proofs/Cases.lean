import LiveExpr.Proofs.Fuel
import LiveExpr.Proofs.Keeping
import LiveExpr.Proofs.Patterns

/-!
# Cases

How a match is evaluated: the value that is matched, then every body once in the order of
the cases. The body of the first case whose pattern matches is evaluated as the match is,
every other one in preview, each with the variable that its own pattern binds. Main
statement: `evaluates_matchCases_iff`.
-/

namespace LiveExpr.Interpreter

open Run (Extends bind_eq_done bind_of_done)

/-- Whether a case is the first whose pattern matches. -/
def IsFirstMatch (value : Value) (cases : List (Pattern × Expr)) (k : Nat) : Prop :=
  (∃ case, cases[k]? = some case ∧ case.1.IsMatch value)
    ∧ ∀ j < k, ∀ case, cases[j]? = some case → ¬ case.1.IsMatch value

/-- The evaluation of the body of a case. -/
structure Visit where
  context : Context
  scope : Scope
  pattern : Pattern
  body : Expr

/-- Whether a visit is to a case of a match, which is taken or only looked at. -/
structure Visit.IsTo (visit : Visit) (c : Context) (scope : Scope) (value : Value)
    (case : Pattern × Expr) (taken : Prop) : Prop where
  case_eq : (visit.pattern, visit.body) = case
  own : taken → visit.context = c
  aside : ¬ taken → visit.context = c.lookAside
  bound : ∀ binding, visit.pattern.Matches value binding →
    visit.scope = Fields.extend scope binding.toList
      ∧ ∀ pair ∈ binding, pair.2.isFake = false
  unbound : ¬ visit.pattern.IsMatch value → visit.scope = scope

/-- Whether visits are to the cases of a match in their order. -/
def AreVisits (c : Context) (scope : Scope) (value : Value) (taken : Nat → Prop)
    (cases : List (Pattern × Expr)) (visits : List Visit) : Prop :=
  visits.length = cases.length
    ∧ ∀ (k : Nat) (visit : Visit) (case : Pattern × Expr), visits[k]? = some visit →
      cases[k]? = some case → visit.IsTo c scope value case (taken k)

/-- Whether a visit leads from world to world: the body evaluates to a result, and the
reports of the pattern follow. -/
def Visit.Leads (visit : Visit) (c : Context) (value : Value) (w : World) (result : Value)
    (w' : World) : Prop :=
  ∃ w₁, Evaluates visit.context visit.scope visit.body w result w₁
    ∧ reportPattern c visit.context.onPath
        (Matching.check c.toplevel value visit.pattern).reports w₁ = (.done (), w')

/-- Whether visits one after another lead from world to world, with their results. -/
inductive Visits (c : Context) (value : Value) :
    List Visit → World → List Value → World → Prop where
  | nil (w : World) : Visits c value [] w [] w
  | cons {visit : Visit} {visits : List Visit} {result : Value} {results : List Value}
      {w w₁ w' : World} (hvisit : visit.Leads c value w result w₁)
      (hvisits : Visits c value visits w₁ results w') :
    Visits c value (visit :: visits) w (result :: results) w'

/-- Whether the visits of a match lead from world to world, and it has a result. -/
structure IsMatchRun (c : Context) (scope : Scope) (id : NodeId) (value : Value)
    (cases : List (Pattern × Expr)) (visits : List Visit) (w : World) (results : List Value)
    (w' : World) (result : Value) : Prop where
  ordered : AreVisits c scope value (IsFirstMatch value cases) cases visits
  run : Visits c value visits w results w'
  chosen : ∀ k, IsFirstMatch value cases k → results[k]? = some result
  fake : value.isFake = true → (∀ case ∈ cases, ¬ case.1.IsMatch value) ∧ result = value
  unmatched : value.isFake = false → (∀ case ∈ cases, ¬ case.1.IsMatch value) →
    result = .incomplete (c.source id)

/-! ### The first match -/

section

variable {value : Value} {case : Pattern × Expr} {cases : List (Pattern × Expr)} {k : Nat}

theorem isFirstMatch_nil :
  ¬ IsFirstMatch value [] k
  := by
  rintro ⟨⟨case, hcase, -⟩, -⟩
  cases hcase

theorem isFirstMatch_zero :
  IsFirstMatch value (case :: cases) 0 ↔ case.1.IsMatch value
  := by
  constructor
  · rintro ⟨⟨_, ⟨⟩, hmatch⟩, -⟩
    exact hmatch
  · intro hmatch
    exact ⟨⟨case, rfl, hmatch⟩, nofun⟩

theorem isFirstMatch_succ :
  IsFirstMatch value (case :: cases) (k + 1)
    ↔ ¬ case.1.IsMatch value ∧ IsFirstMatch value cases k
  := by
  constructor
  · rintro ⟨hmatch, hbefore⟩
    refine ⟨hbefore 0 (Nat.succ_pos k) case rfl, hmatch, fun j hj => ?_⟩
    exact hbefore (j + 1) (Nat.succ_lt_succ hj)
  · rintro ⟨hhead, hmatch, hbefore⟩
    refine ⟨hmatch, fun j hj => ?_⟩
    cases j with
    | zero =>
      rintro _ ⟨⟩
      exact hhead
    | succ j => exact hbefore j (Nat.lt_of_succ_lt_succ hj)

/-- If a pattern matches, some case is the first whose pattern does. -/
theorem exists_isFirstMatch (h : ∃ case ∈ cases, case.1.IsMatch value) :
  ∃ k, IsFirstMatch value cases k
  := by
  induction cases with
  | nil => obtain ⟨_, ⟨⟩, -⟩ := h
  | cons case cases ih =>
    by_cases hcase : case.1.IsMatch value
    · exact ⟨0, isFirstMatch_zero.mpr hcase⟩
    · obtain ⟨other, hother, hmatch⟩ := h
      rcases List.mem_cons.mp hother with rfl | hother
      · exact absurd hmatch hcase
      · obtain ⟨k, hk⟩ := ih ⟨other, hother, hmatch⟩
        exact ⟨k + 1, isFirstMatch_succ.mpr ⟨hcase, hk⟩⟩

theorem IsFirstMatch.exists_isMatch (h : IsFirstMatch value cases k) :
  ∃ case ∈ cases, case.1.IsMatch value
  := by
  obtain ⟨⟨case, hcase, hmatch⟩, -⟩ := h
  exact ⟨case, List.mem_of_getElem? hcase, hmatch⟩

end

/-! ### Visits -/

section

variable {c : Context} {scope : Scope} {value : Value} {case : Pattern × Expr}
variable {cases : List (Pattern × Expr)} {taken : Prop} {first : Nat → Prop}

/-- The visit of a case, in some context. -/
def Visit.ofCase (c context : Context) (scope : Scope) (value : Value)
    (case : Pattern × Expr) : Visit where
  context
  scope := (Matching.check c.toplevel value case.1).extend scope
  pattern := case.1
  body := case.2

theorem Visit.ofCase_isTo {context : Context} (hown : taken → context = c)
    (haside : ¬ taken → context = c.lookAside) :
  (Visit.ofCase c context scope value case).IsTo c scope value case taken where
  case_eq := rfl
  own := hown
  aside := haside
  bound _ h := ⟨h.extend_check scope, fun _ hpair => h.isFake_bound (Option.mem_def.mp hpair)⟩
  unbound h := Pattern.extend_check_of_not_isMatch h scope

theorem Visit.own_isTo (h : taken) :
  (Visit.ofCase c c scope value case).IsTo c scope value case taken
  := ofCase_isTo (fun _ => rfl) fun hnot => absurd h hnot

theorem Visit.aside_isTo (h : ¬ taken) :
  (Visit.ofCase c c.lookAside scope value case).IsTo c scope value case taken
  := ofCase_isTo (fun htaken => absurd htaken h) fun _ => rfl

/-- A case is visited in one way only. -/
theorem Visit.IsTo.eq_ofCase {visit : Visit}
    (h : visit.IsTo c scope value case taken) :
  visit = .ofCase c visit.context scope value case
  := by
  obtain ⟨context, scope', pattern, body⟩ := visit
  obtain rfl := h.case_eq
  have hscope : scope' = (Matching.check c.toplevel value pattern).extend scope := by
    by_cases hmatch : pattern.IsMatch value
    · obtain ⟨binding, hbinding⟩ := hmatch
      rw [hbinding.extend_check]
      exact (h.bound binding hbinding).1
    · rw [Pattern.extend_check_of_not_isMatch hmatch]
      exact h.unbound hmatch
  rw [hscope]
  rfl

theorem Visit.IsTo.eq_own {visit : Visit} (h : visit.IsTo c scope value case taken)
    (htaken : taken) :
  visit = .ofCase c c scope value case
  := by
  have heq := h.eq_ofCase
  rwa [h.own htaken] at heq

theorem Visit.IsTo.eq_aside {visit : Visit} (h : visit.IsTo c scope value case taken)
    (htaken : ¬ taken) :
  visit = .ofCase c c.lookAside scope value case
  := by
  have heq := h.eq_ofCase
  rwa [h.aside htaken] at heq

theorem AreVisits.congr {first' : Nat → Prop} {visits : List Visit}
    (h : AreVisits c scope value first cases visits) (hfirst : ∀ k, first k ↔ first' k) :
  AreVisits c scope value first' cases visits
  := ⟨h.1, fun k visit case hvisit hcase => by
    rw [← propext (hfirst k)]
    exact h.2 k visit case hvisit hcase⟩

theorem areVisits_nil {visits : List Visit} :
  AreVisits c scope value first [] visits ↔ visits = []
  := by
  constructor
  · rintro ⟨hlength, -⟩
    exact List.length_eq_zero_iff.mp hlength
  · rintro rfl
    exact ⟨rfl, nofun⟩

theorem areVisits_cons {visits : List Visit} :
  AreVisits c scope value first (case :: cases) visits
    ↔ ∃ visit rest, visits = visit :: rest ∧ visit.IsTo c scope value case (first 0)
      ∧ AreVisits c scope value (fun k => first (k + 1)) cases rest
  := by
  constructor
  · rintro ⟨hlength, hvisits⟩
    obtain ⟨visit, rest, rfl⟩ := List.exists_cons_of_length_eq_add_one hlength
    refine ⟨visit, rest, rfl, hvisits 0 visit case rfl rfl, by simpa using hlength, ?_⟩
    exact fun k => hvisits (k + 1)
  · rintro ⟨visit, rest, rfl, hvisit, hlength, hrest⟩
    refine ⟨by simpa using hlength, fun k => ?_⟩
    cases k with
    | zero =>
      rintro _ _ ⟨⟩ ⟨⟩
      exact hvisit
    | succ k => exact hrest k

end

/-! ### The loop over the cases -/

/-- Whether the loop over the cases of a match ends with a choice, given enough fuel. -/
def EvaluatesCases (c : Context) (scope : Scope) (value : Value)
    (cases : List (Pattern × Expr)) (chosen : Option Value) (w : World)
    (choice : Option Value) (w' : World) : Prop :=
  ∃ fuel, evalCases fuel c scope value cases chosen w = (.done choice, w')

section

variable {c : Context} {scope : Scope} {value : Value} {case : Pattern × Expr}
variable {rest : List (Pattern × Expr)} {chosen choice : Option Value} {w w' : World}

theorem evaluatesCases_nil :
  EvaluatesCases c scope value [] chosen w choice w' ↔ choice = chosen ∧ w' = w
  := by
  constructor
  · rintro ⟨_ | fuel, ⟨⟩⟩
    exact ⟨rfl, rfl⟩
  · rintro ⟨rfl, rfl⟩
    exact ⟨1, rfl⟩

/-- The first case whose pattern matches is visited as the match is. -/
theorem evaluatesCases_taken (h : case.1.IsMatch value) :
  EvaluatesCases c scope value (case :: rest) none w choice w'
    ↔ ∃ result w₁, (Visit.ofCase c c scope value case).Leads c value w result w₁
      ∧ EvaluatesCases c scope value rest (some result) w₁ choice w'
  := by
  have hmatched := (Pattern.isMatch_iff_check c.toplevel).mp h
  constructor
  · rintro ⟨_ | fuel, hrun⟩
    · cases hrun
    · simp only [evalCases, Option.isNone_none, Bool.true_and, if_pos hmatched] at hrun
      obtain ⟨result, w₁, hbody, hrun⟩ := bind_eq_done hrun
      obtain ⟨_, w₂, hreports, hrest⟩ := bind_eq_done hrun
      exact ⟨result, w₂, ⟨w₁, ⟨fuel, hbody⟩, hreports⟩, fuel, hrest⟩
  · rintro ⟨result, w₂, ⟨w₁, hbody, hreports⟩, fuel, hrest⟩
    obtain ⟨fuel', hbody⟩ := hbody.from_fuel
    have hbody := hbody _ (Nat.le_max_right fuel fuel')
    dsimp only [Visit.ofCase] at hbody hreports
    refine ⟨max fuel fuel' + 1, ?_⟩
    simp only [evalCases, Option.isNone_none, Bool.true_and, if_pos hmatched]
    rw [bind_of_done hbody, bind_of_done hreports]
    exact Extends.of_done (Activation.extends_of_le (Nat.le_max_left ..) (.evalCases ..)) hrest

/-- Every other case is visited in preview. -/
theorem evaluatesCases_passed (h : chosen = none → ¬ case.1.IsMatch value) :
  EvaluatesCases c scope value (case :: rest) chosen w choice w'
    ↔ ∃ result w₁, (Visit.ofCase c c.lookAside scope value case).Leads c value w result w₁
      ∧ EvaluatesCases c scope value rest chosen w₁ choice w'
  := by
  have hpassed :
      ¬ (chosen.isNone && (Matching.check c.toplevel value case.1).matched) = true := by
    rw [Bool.and_eq_true, Option.isNone_iff_eq_none, ← Pattern.isMatch_iff_check]
    rintro ⟨hnone, hmatch⟩
    exact h hnone hmatch
  constructor
  · rintro ⟨_ | _ | fuel, hrun⟩
    · cases hrun
    · simp only [evalCases, if_neg hpassed] at hrun
      obtain ⟨_, _, hlook, -⟩ := bind_eq_done hrun
      cases hlook
    · simp only [evalCases, if_neg hpassed] at hrun
      obtain ⟨_, w₁, hlook, hrun⟩ := bind_eq_done hrun
      obtain ⟨result, w₁', hbody, ⟨⟩⟩ := bind_eq_done hlook
      obtain ⟨_, w₂, hreports, hrest⟩ := bind_eq_done hrun
      exact ⟨result, w₂, ⟨w₁, ⟨fuel, hbody⟩, hreports⟩, fuel + 1, hrest⟩
  · rintro ⟨result, w₂, ⟨w₁, hbody, hreports⟩, fuel, hrest⟩
    obtain ⟨fuel', hbody⟩ := hbody.from_fuel
    have hbody := hbody _ (Nat.le_max_right fuel fuel')
    dsimp only [Visit.ofCase] at hbody hreports
    have hlook : lookAt (max fuel fuel' + 1) c
        ((Matching.check c.toplevel value case.1).extend scope) case.2 w = (.done (), w₁) := by
      rw [lookAt, bind_of_done hbody]
      rfl
    have hreports : reportPattern c false (Matching.check c.toplevel value case.1).reports w₁
        = (.done (), w₂) := hreports
    refine ⟨max fuel fuel' + 2, ?_⟩
    simp only [evalCases, if_neg hpassed]
    rw [bind_of_done hlook, bind_of_done hreports]
    have hle : fuel ≤ max fuel fuel' + 1 := Nat.le_succ_of_le (Nat.le_max_left ..)
    exact Extends.of_done (Activation.extends_of_le hle (.evalCases ..)) hrest

end

variable {c : Context} {scope : Scope} {value : Value} {cases : List (Pattern × Expr)}
variable {w w' : World}

/-- After a choice, the loop visits all cases that are left in preview. -/
theorem evaluatesCases_chosen {result : Value} {choice : Option Value} :
  EvaluatesCases c scope value cases (some result) w choice w'
    ↔ choice = some result
      ∧ ∃ visits results, AreVisits c scope value (fun _ => False) cases visits
        ∧ Visits c value visits w results w'
  := by
  induction cases generalizing w with
  | nil =>
    rw [evaluatesCases_nil]
    constructor
    · rintro ⟨hchoice, rfl⟩
      exact ⟨hchoice, [], [], areVisits_nil.mpr rfl, .nil _⟩
    · rintro ⟨hchoice, visits, results, hare, hvisits⟩
      obtain rfl := areVisits_nil.mp hare
      cases hvisits
      exact ⟨hchoice, rfl⟩
  | cons case rest ih =>
    have hpassed : some result = none → ¬ case.1.IsMatch value := by rintro ⟨⟩
    rw [evaluatesCases_passed hpassed]
    constructor
    · rintro ⟨result, w₁, hvisit, hrest⟩
      obtain ⟨hchoice, visits, results, hare, hvisits⟩ := ih.mp hrest
      refine ⟨hchoice, _, _, ?_, .cons hvisit hvisits⟩
      exact areVisits_cons.mpr ⟨_, _, rfl, Visit.aside_isTo not_false, hare⟩
    · rintro ⟨hchoice, visits, results, hall, hvisits⟩
      obtain ⟨visit, visits, rfl, hto, hare⟩ := areVisits_cons.mp hall
      obtain rfl := hto.eq_aside not_false
      cases hvisits with
      | cons hvisit hvisits =>
        exact ⟨_, _, hvisit, ih.mpr ⟨hchoice, _, _, hare, hvisits⟩⟩

/-- The choice among cases is the result of the first whose pattern matches. -/
def IsChoice (value : Value) (cases : List (Pattern × Expr)) (results : List Value)
    (choice : Option Value) : Prop :=
  (∀ k, IsFirstMatch value cases k → ∃ result, results[k]? = some result ∧ choice = some result)
    ∧ ((∀ k, ¬ IsFirstMatch value cases k) → choice = none)

/-- Without a choice so far, the loop visits all cases and takes the first that matches. -/
theorem evaluatesCases_open {choice : Option Value} :
  EvaluatesCases c scope value cases none w choice w'
    ↔ ∃ visits results, AreVisits c scope value (IsFirstMatch value cases) cases visits
      ∧ Visits c value visits w results w' ∧ IsChoice value cases results choice
  := by
  induction cases generalizing w with
  | nil =>
    rw [evaluatesCases_nil]
    constructor
    · rintro ⟨rfl, rfl⟩
      refine ⟨[], [], areVisits_nil.mpr rfl, .nil _, ?_, fun _ => rfl⟩
      exact fun k hk => absurd hk isFirstMatch_nil
    · rintro ⟨visits, results, hare, hvisits, -, hnone⟩
      obtain rfl := areVisits_nil.mp hare
      cases hvisits
      exact ⟨hnone fun _ => isFirstMatch_nil, rfl⟩
  | cons case rest ih =>
    by_cases hmatch : case.1.IsMatch value
    · -- the case is taken, and no later one is the first
      have hfirst : IsFirstMatch value (case :: rest) 0 := isFirstMatch_zero.mpr hmatch
      have hlater : ∀ k, ¬ IsFirstMatch value (case :: rest) (k + 1) :=
        fun k hk => (isFirstMatch_succ.mp hk).1 hmatch
      rw [evaluatesCases_taken hmatch]
      constructor
      · rintro ⟨result, w₁, hvisit, hrest⟩
        obtain ⟨rfl, visits, results, hare, hvisits⟩ := evaluatesCases_chosen.mp hrest
        have hare := hare.congr fun k => (iff_false_intro (hlater k)).symm
        refine ⟨_, _, ?_, .cons hvisit hvisits, ?_, ?_⟩
        · exact areVisits_cons.mpr ⟨_, _, rfl, Visit.own_isTo hfirst, hare⟩
        · intro k hk
          cases k with
          | zero => exact ⟨result, rfl, rfl⟩
          | succ k => exact absurd hk (hlater k)
        · exact fun hnone => absurd hfirst (hnone 0)
      · rintro ⟨visits, results, hall, hvisits, hchoice, -⟩
        obtain ⟨visit, visits, rfl, hto, hare⟩ := areVisits_cons.mp hall
        obtain rfl := hto.eq_own hfirst
        cases hvisits with
        | cons hvisit hvisits =>
          obtain ⟨result, ⟨⟩, rfl⟩ := hchoice 0 hfirst
          have hare := hare.congr fun k => iff_false_intro (hlater k)
          exact ⟨_, _, hvisit, evaluatesCases_chosen.mpr ⟨rfl, _, _, hare, hvisits⟩⟩
    · -- the case is passed, and a later one is the first if it is so among the others
      have hfirst : ¬ IsFirstMatch value (case :: rest) 0 := mt isFirstMatch_zero.mp hmatch
      have hlater : ∀ k, IsFirstMatch value (case :: rest) (k + 1) ↔ IsFirstMatch value rest k :=
        fun k => isFirstMatch_succ.trans (and_iff_right hmatch)
      rw [evaluatesCases_passed fun _ => hmatch]
      constructor
      · rintro ⟨result, w₁, hvisit, hrest⟩
        obtain ⟨visits, results, hare, hvisits, hchoice, hnone⟩ := ih.mp hrest
        have hare := hare.congr fun k => (hlater k).symm
        refine ⟨_, _, ?_, .cons hvisit hvisits, ?_, ?_⟩
        · exact areVisits_cons.mpr ⟨_, _, rfl, Visit.aside_isTo hfirst, hare⟩
        · intro k hk
          cases k with
          | zero => exact absurd hk hfirst
          | succ k => exact hchoice k ((hlater k).mp hk)
        · exact fun h => hnone fun k hk => h (k + 1) ((hlater k).mpr hk)
      · rintro ⟨visits, results, hall, hvisits, hchoice, hnone⟩
        obtain ⟨visit, visits, rfl, hto, hare⟩ := areVisits_cons.mp hall
        obtain rfl := hto.eq_aside hfirst
        cases hvisits with
        | cons hvisit hvisits =>
          refine ⟨_, _, hvisit, ih.mpr ⟨_, _, hare.congr hlater, hvisits, ?_, ?_⟩⟩
          · exact fun k hk => hchoice (k + 1) ((hlater k).mpr hk)
          · intro h
            apply hnone
            intro k hk
            cases k with
            | zero => exact hfirst hk
            | succ k => exact h k ((hlater k).mp hk)

/-! ### Matches -/

/-- The result of a match without a choice. -/
def unmatchedResult (c : Context) (id : NodeId) (value : Value) : Value :=
  if value.isFake then value else .incomplete (c.source id)

/-- A match evaluates to the choice among its cases. -/
theorem evaluates_iff_evaluatesCases {id : NodeId} {scrutinee : Expr} {result : Value} :
  Evaluates c scope (.matchCases id scrutinee cases) w result w'
    ↔ ∃ value w₁ choice w₂, Evaluates c scope scrutinee w value w₁
      ∧ EvaluatesCases c scope value cases none w₁ choice w₂
      ∧ result = choice.getD (unmatchedResult c id value)
      ∧ Run.report c c.onPath id result w₂ = (.done (), w')
  := by
  constructor
  · rintro ⟨_ | _ | fuel, hrun⟩
    · cases hrun
    · cases hrun
    · simp only [eval] at hrun
      obtain ⟨result, w₂, hnode, hrun⟩ := bind_eq_done hrun
      obtain ⟨_, w', hreport, ⟨⟩⟩ := bind_eq_done hrun
      simp only [evalNode] at hnode
      obtain ⟨value, w₁, hscrutinee, hnode⟩ := bind_eq_done hnode
      obtain ⟨choice, w₂, hcases, hnode⟩ := bind_eq_done hnode
      refine ⟨value, w₁, choice, w₂, ⟨fuel, hscrutinee⟩, ⟨fuel, hcases⟩, ?_⟩
      cases choice with
      | some result =>
        cases hnode
        exact ⟨rfl, hreport⟩
      | none =>
        rw [Option.getD_none, unmatchedResult]
        by_cases hfake : value.isFake = true
        · rw [if_pos hfake]
          simp only [if_pos hfake] at hnode
          cases hnode
          exact ⟨rfl, hreport⟩
        · rw [if_neg hfake]
          simp only [if_neg hfake] at hnode
          cases hnode
          exact ⟨rfl, hreport⟩
  · rintro ⟨value, w₁, choice, w₂, hscrutinee, ⟨fuel, hcases⟩, rfl, hreport⟩
    obtain ⟨fuel', hscrutinee⟩ := hscrutinee.from_fuel
    have hcases := Extends.of_done
      (Activation.extends_of_le (Nat.le_max_left fuel fuel') (.evalCases ..)) hcases
    have hnode : evalNode (max fuel fuel' + 1) c scope (.matchCases id scrutinee cases) w
        = (.done (choice.getD (unmatchedResult c id value)), w₂) := by
      simp only [evalNode]
      rw [bind_of_done (hscrutinee _ (Nat.le_max_right ..)), bind_of_done hcases]
      cases choice with
      | some result => rfl
      | none =>
        rw [Option.getD_none, unmatchedResult]
        split <;> rfl
    refine ⟨max fuel fuel' + 2, ?_⟩
    rw [eval, bind_of_done hnode, Expr.id, bind_of_done hreport]
    rfl

theorem IsFirstMatch.not_of_forall (h : ∀ case ∈ cases, ¬ case.1.IsMatch value) (k : Nat) :
  ¬ IsFirstMatch value cases k
  := by
  intro hk
  obtain ⟨case, hcase, hmatch⟩ := hk.exists_isMatch
  exact h case hcase hmatch

/-- What comes of a match is its choice among the results, or what it has without one. -/
theorem isMatchRun_iff {id : NodeId} {visits : List Visit} {results : List Value}
    {result : Value} :
  IsMatchRun c scope id value cases visits w results w' result
    ↔ AreVisits c scope value (IsFirstMatch value cases) cases visits
      ∧ Visits c value visits w results w'
      ∧ ∃ choice, IsChoice value cases results choice
        ∧ result = choice.getD (unmatchedResult c id value)
  := by
  constructor
  · intro h
    refine ⟨h.ordered, h.run, ?_⟩
    by_cases hmatch : ∃ case ∈ cases, case.1.IsMatch value
    · obtain ⟨k, hk⟩ := exists_isFirstMatch hmatch
      refine ⟨some result, ⟨fun j hj => ⟨result, h.chosen j hj, rfl⟩, ?_⟩, rfl⟩
      exact fun hnone => absurd hk (hnone k)
    · have hnone : ∀ case ∈ cases, ¬ case.1.IsMatch value := by simpa using hmatch
      refine ⟨none, ⟨?_, fun _ => rfl⟩, ?_⟩
      · exact fun k hk => absurd hk (IsFirstMatch.not_of_forall hnone k)
      · rw [Option.getD_none, unmatchedResult]
        split
        · next hfake => exact (h.fake hfake).2
        · next hreal => exact h.unmatched (by simpa using hreal) hnone
  · rintro ⟨hordered, hrun, choice, ⟨hchosen, hnone⟩, rfl⟩
    have hunmatched (h : ∀ case ∈ cases, ¬ case.1.IsMatch value) : choice = none :=
      hnone (IsFirstMatch.not_of_forall h)
    refine ⟨hordered, hrun, ?_, ?_, ?_⟩
    · intro k hk
      obtain ⟨result, hresult, rfl⟩ := hchosen k hk
      exact hresult
    · intro hfake
      have hnever : ∀ case ∈ cases, ¬ case.1.IsMatch value := by
        rintro case - ⟨binding, hmatch⟩
        exact absurd hmatch.isFake (by simp [hfake])
      rw [hunmatched hnever]
      exact ⟨hnever, if_pos hfake⟩
    · intro hreal hnever
      rw [hunmatched hnever]
      exact if_neg (by simp [hreal])

/-- A match evaluates to a result if what is matched has a value, the bodies of the cases
have values one after another, and the result is then reported. -/
theorem evaluates_matchCases_iff {id : NodeId} {scrutinee : Expr} {result : Value} :
  Evaluates c scope (.matchCases id scrutinee cases) w result w'
    ↔ ∃ value w₁ visits results w₂, Evaluates c scope scrutinee w value w₁
      ∧ IsMatchRun c scope id value cases visits w₁ results w₂ result
      ∧ Run.report c c.onPath id result w₂ = (.done (), w')
  := by
  rw [evaluates_iff_evaluatesCases]
  constructor
  · rintro ⟨value, w₁, choice, w₂, hscrutinee, hcases, hresult, hreport⟩
    obtain ⟨visits, results, hordered, hrun, hchoice⟩ := evaluatesCases_open.mp hcases
    refine ⟨value, w₁, visits, results, w₂, hscrutinee, ?_, hreport⟩
    exact isMatchRun_iff.mpr ⟨hordered, hrun, choice, hchoice, hresult⟩
  · rintro ⟨value, w₁, visits, results, w₂, hscrutinee, hmatch, hreport⟩
    obtain ⟨hordered, hrun, choice, hchoice, hresult⟩ := isMatchRun_iff.mp hmatch
    have hcases := evaluatesCases_open.mpr ⟨visits, results, hordered, hrun, hchoice⟩
    exact ⟨value, w₁, choice, w₂, hscrutinee, hcases, hresult, hreport⟩

end LiveExpr.Interpreter
