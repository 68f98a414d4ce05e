import LiveExpr.Eval.Matching

/-!
# Patterns

When a pattern matches a value and what it binds, apart from how that is found out: a rule
for each shape of pattern. A literal matches what is equal to it, a variable whatever is no
fake value, and a constructor with one argument a value that it makes of what its argument
matches. Main statement: `matches_iff_check`.
-/

namespace LiveExpr

namespace Pattern

/-- Whether a pattern matches a value, and the variable that it then binds. -/
inductive Matches : Pattern → Value → Option (String × Value) → Prop where
  | integer (id : NodeId) (n : Int) : Matches (.integer id n) (.int n) none
  | bool (id : NodeId) (b : Bool) : Matches (.bool id b) (.bool b) none
  | string (id : NodeId) (text : String) :
    Matches (.string id text) (.str (Text.nfc text)) none
  | character (id : NodeId) {text : String}
      (h : Text.clusterCount (Text.nfc text) = 1) :
    Matches (.character id text) (.char (Text.nfc text)) none
  | float (id : NodeId) {x y : Binary64} (h : y.sameNumber x = true) :
    Matches (.float id x) (.float y) none
  | null (id : NodeId) : Matches (.null id) .null none
  | variable (id : NodeId) (name : String) {value : Value} (h : value.isFake = false) :
    Matches (.variable id name) value (some (name, value))
  | nothing (id : NodeId) {name : String} (hname : name = "Nothing") :
    Matches (.constructor id name []) .nothing none
  | just (id : NodeId) {name : String} (hname : name = "Just") {arg : Pattern}
      {payload : Value} {binding : Option (String × Value)}
      (h : Matches arg payload binding) :
    Matches (.constructor id name [arg]) (.just payload) binding
  | ok (id : NodeId) {name : String} (hname : name = "Ok") {arg : Pattern}
      {payload : Value} {binding : Option (String × Value)}
      (h : Matches arg payload binding) :
    Matches (.constructor id name [arg]) (.ok payload) binding
  | error (id : NodeId) {name : String} (hname : name = "Error") {arg : Pattern}
      {payload : Value} {binding : Option (String × Value)}
      (h : Matches arg payload binding) :
    Matches (.constructor id name [arg]) (.error payload) binding

/-- Whether a pattern matches a value. -/
def IsMatch (pattern : Pattern) (value : Value) : Prop :=
  ∃ binding, pattern.Matches value binding

variable {pattern : Pattern} {value : Value} {binding : Option (String × Value)}

/-- A pattern binds in one way only. -/
theorem Matches.unique {other : Option (String × Value)} (h : pattern.Matches value binding)
    (hother : pattern.Matches value other) :
  binding = other
  := by
  induction h with
  | integer | bool | string | character | float | null | «variable» | nothing =>
    cases hother
    rfl
  | just _ _ _ ih | ok _ _ _ ih | error _ _ _ ih =>
    cases hother
    exact ih ‹_›

/-- No pattern matches a fake value. -/
theorem Matches.isFake (h : pattern.Matches value binding) :
  value.isFake = false
  := by
  cases h with
  | «variable» _ _ h => exact h
  | _ => rfl

/-- No variable is bound to a fake value. -/
theorem Matches.isFake_bound (h : pattern.Matches value binding) {name : String}
    {bound : Value} (hbinding : binding = some (name, bound)) :
  bound.isFake = false
  := by
  induction h with
  | integer | bool | string | character | float | null | nothing => cases hbinding
  | «variable» _ _ h =>
    cases hbinding
    exact h
  | just _ _ _ ih | ok _ _ _ ih | error _ _ _ ih => exact ih hbinding

end Pattern

/-! ### Literals -/

namespace Value

attribute [local simp] same equals

variable {value : Value}

theorem same_int_iff {n : Int} :
  value.same (.int n) = true ↔ value = .int n
  := by cases value <;> simp

theorem same_bool_iff {b : Bool} :
  value.same (.bool b) = true ↔ value = .bool b
  := by cases value <;> simp

theorem same_str_iff {text : String} :
  value.same (.str text) = true ↔ value = .str text
  := by cases value <;> simp

theorem same_char_iff {text : String} :
  value.same (.char text) = true ↔ value = .char text
  := by cases value <;> simp

theorem same_float_iff {x : Binary64} :
  value.same (.float x) = true ↔ ∃ y, value = .float y ∧ y.sameNumber x = true
  := by cases value <;> simp

theorem same_null_iff :
  value.same .null = true ↔ value = .null
  := by cases value <;> simp

theorem same_nothing_iff :
  value.same .nothing = true ↔ value = .nothing
  := by cases value <;> simp

end Value

/-! ### Checking -/

namespace Pattern

variable {pattern : Pattern} {value : Value} {binding : Option (String × Value)}

/-- Whether a matching has succeeded and binds what the pattern does, or has failed and
binds nothing. -/
def IsDecided (pattern : Pattern) (value : Value) (m : Matching) : Prop :=
  (∃ binding, pattern.Matches value binding ∧ m.matched = true ∧ m.bindings = binding.toList)
    ∨ (¬ pattern.IsMatch value ∧ m.matched = false ∧ m.bindings = [])

/-- A literal binds nothing. -/
theorem literal_isDecided {id : NodeId} {expected : Value}
    (h : value.same expected = true → pattern.Matches value none)
    (hinv : ∀ binding, pattern.Matches value binding →
      binding = none ∧ value.same expected = true) :
  pattern.IsDecided value (Matching.literal value id expected)
  := by
  by_cases hsame : value.same expected = true
  · exact .inl ⟨none, h hsame, hsame, rfl⟩
  · refine .inr ⟨?_, by simpa [Matching.literal] using hsame, rfl⟩
    rintro ⟨binding, hmatch⟩
    exact hsame (hinv binding hmatch).2

theorem refuted_isDecided {id : NodeId} {shown : Value} (h : ¬ pattern.IsMatch value) :
  pattern.IsDecided value (Matching.refuted id shown)
  := .inr ⟨h, rfl, rfl⟩

/-- A pattern with one argument matches a value whose payload the argument matches. -/
theorem matches_unary_iff {id : NodeId} {name : String} {arg : Pattern} :
  Matches (.constructor id name [arg]) value binding
    ↔ ∃ payload, Matching.payload? name value = some payload ∧ arg.Matches payload binding
  := by
  constructor
  · intro h
    cases h with
    | just _ hname h | ok _ hname h | error _ hname h =>
      subst hname
      exact ⟨_, rfl, h⟩
  · rintro ⟨payload, hpayload, h⟩
    unfold Matching.payload? at hpayload
    split at hpayload
    · obtain rfl := Option.some.inj hpayload
      exact .just id rfl h
    · obtain rfl := Option.some.inj hpayload
      exact .ok id rfl h
    · obtain rfl := Option.some.inj hpayload
      exact .error id rfl h
    · cases hpayload

/-- A constructor with another number of arguments than it has is no pattern. -/
theorem isUnary_of_matches {id : NodeId} {name : String} {args : List Pattern}
    (h : Matches (.constructor id name args) value binding) :
  name = "Nothing" ∧ args = [] ∨ Matching.isUnary name = true ∧ ∃ arg, args = [arg]
  := by
  cases h with
  | nothing _ hname => exact .inl ⟨hname, rfl⟩
  | just _ hname | ok _ hname | error _ hname =>
    subst hname
    exact .inr ⟨rfl, _, rfl⟩

/-- A check decides whether a pattern matches, and binds what the pattern does. -/
theorem check_isDecided (toplevel : ToplevelId) (value : Value) (pattern : Pattern) :
  pattern.IsDecided value (Matching.check toplevel value pattern)
  := by
  fun_induction Matching.check toplevel value pattern with
  | case1 value id n =>
    apply literal_isDecided
    · intro h
      rw [Value.same_int_iff.mp h]
      exact .integer id n
    · rintro _ ⟨⟩
      exact ⟨rfl, Value.same_int_iff.mpr rfl⟩
  | case2 value id b =>
    apply literal_isDecided
    · intro h
      rw [Value.same_bool_iff.mp h]
      exact .bool id b
    · rintro _ ⟨⟩
      exact ⟨rfl, Value.same_bool_iff.mpr rfl⟩
  | case3 value id text =>
    apply literal_isDecided
    · intro h
      rw [Value.same_str_iff.mp h]
      exact .string id text
    · rintro _ ⟨⟩
      exact ⟨rfl, Value.same_str_iff.mpr rfl⟩
  | case4 value id x =>
    apply literal_isDecided
    · intro h
      obtain ⟨y, rfl, hy⟩ := Value.same_float_iff.mp h
      exact .float id hy
    · intro binding hmatch
      cases hmatch with
      | float _ hy => exact ⟨rfl, Value.same_float_iff.mpr ⟨_, rfl, hy⟩⟩
  | case5 value id =>
    apply literal_isDecided
    · intro h
      rw [Value.same_null_iff.mp h]
      exact .null id
    · rintro _ ⟨⟩
      exact ⟨rfl, Value.same_null_iff.mpr rfl⟩
  | case6 value id text expected hchar =>
    rw [Value.ofCharacter] at hchar
    split at hchar
    · next hcount =>
      cases hchar
      apply literal_isDecided
      · intro h
        rw [Value.same_char_iff.mp h]
        exact .character id hcount
      · rintro _ ⟨⟩
        exact ⟨rfl, Value.same_char_iff.mpr rfl⟩
    · cases hchar
  | case7 value id text error hchar =>
    apply refuted_isDecided
    rintro ⟨_, hmatch⟩
    cases hmatch with
    | character _ hcount =>
      rw [Value.ofCharacter, if_pos hcount] at hchar
      cases hchar
  | case8 value id name hfake =>
    apply refuted_isDecided
    rintro ⟨_, hmatch⟩
    rw [hmatch.isFake] at hfake
    cases hfake
  | case9 value id name hreal =>
    exact .inl ⟨_, .variable id name (by simpa using hreal), rfl, rfl⟩
  | case10 =>
    apply refuted_isDecided
    rintro ⟨_, ⟨⟩⟩
  | case11 value id args hargs =>
    rw [List.isEmpty_iff.mp hargs]
    apply literal_isDecided
    · intro h
      rw [Value.same_nothing_iff.mp h]
      exact .nothing id rfl
    · intro binding hmatch
      cases hmatch
      exact ⟨rfl, Value.same_nothing_iff.mpr rfl⟩
  | case12 value id args hole hargs =>
    apply refuted_isDecided
    rintro ⟨_, hmatch⟩
    rcases isUnary_of_matches hmatch with ⟨-, rfl⟩ | ⟨hunary, -⟩
    · exact hargs rfl
    · exact absurd hunary (by decide)
  | case13 value id name hnothing hunary arg payload hpayload m ih =>
    rcases ih with ⟨binding, hmatch, hmatched, hbindings⟩ | ⟨hnone, hmatched, hbindings⟩
    · refine .inl ⟨binding, ?_, hmatched, hbindings⟩
      exact matches_unary_iff.mpr ⟨payload, hpayload, hmatch⟩
    · refine .inr ⟨?_, hmatched, hbindings⟩
      rintro ⟨binding, hmatch⟩
      obtain ⟨payload', hpayload', hmatch⟩ := matches_unary_iff.mp hmatch
      obtain rfl := Option.some.inj (hpayload.symm.trans hpayload')
      exact hnone ⟨binding, hmatch⟩
  | case14 value id name hole hnothing hunary arg hpayload m ih =>
    -- the argument is checked against a hole, which nothing matches
    rcases ih with ⟨binding, hmatch, -⟩ | ⟨-, -, hbindings⟩
    · cases hmatch.isFake
    · refine .inr ⟨?_, rfl, hbindings⟩
      rintro ⟨binding, hmatch⟩
      obtain ⟨payload, hpayload', -⟩ := matches_unary_iff.mp hmatch
      cases hpayload.symm.trans hpayload'
  | case15 value id name args hole hnothing hunary hargs =>
    apply refuted_isDecided
    rintro ⟨_, hmatch⟩
    rcases isUnary_of_matches hmatch with ⟨hname, -⟩ | ⟨-, arg, rfl⟩
    · exact hnothing hname
    · exact hargs arg rfl
  | case16 value id name args hnothing hunary =>
    apply refuted_isDecided
    rintro ⟨_, hmatch⟩
    rcases isUnary_of_matches hmatch with ⟨hname, -⟩ | ⟨hname, -⟩
    · exact hnothing hname
    · exact hunary hname

variable {toplevel : ToplevelId}

/-- A check succeeds if the pattern matches, and then binds what the pattern does. -/
theorem matches_iff_check :
  pattern.Matches value binding
    ↔ (Matching.check toplevel value pattern).matched = true
      ∧ (Matching.check toplevel value pattern).bindings = binding.toList
  := by
  rcases check_isDecided toplevel value pattern with
    ⟨bound, hmatch, hmatched, hbindings⟩ | ⟨hnone, hmatched, -⟩
  · constructor
    · intro h
      obtain rfl := h.unique hmatch
      exact ⟨hmatched, hbindings⟩
    · rintro ⟨-, h⟩
      rw [hbindings] at h
      cases bound <;> cases binding <;> simp_all
  · constructor
    · intro h
      exact absurd ⟨binding, h⟩ hnone
    · rintro ⟨h, -⟩
      rw [hmatched] at h
      cases h

theorem isMatch_iff_check (toplevel : ToplevelId) :
  pattern.IsMatch value ↔ (Matching.check toplevel value pattern).matched = true
  := by
  rcases check_isDecided toplevel value pattern with ⟨bound, hmatch, h, -⟩ | ⟨hnone, h, -⟩
  · exact ⟨fun _ => h, fun _ => ⟨bound, hmatch⟩⟩
  · rw [h]
    exact ⟨fun hmatch => absurd hmatch hnone, nofun⟩

instance : Decidable (pattern.IsMatch value) :=
  decidable_of_iff _ (isMatch_iff_check 0).symm

/-- Under a pattern that matches, its variable is in scope beside those of the match. -/
theorem Matches.extend_check (h : pattern.Matches value binding) (scope : Scope) :
  (Matching.check toplevel value pattern).extend scope = Fields.extend scope binding.toList
  := by rw [Matching.extend, (matches_iff_check.mp h).2]

/-- Under a pattern that fails, the variables of the match are in scope and no others. -/
theorem extend_check_of_not_isMatch (h : ¬ pattern.IsMatch value) (scope : Scope) :
  (Matching.check toplevel value pattern).extend scope = scope
  := by
  rcases check_isDecided toplevel value pattern with ⟨bound, hmatch, -⟩ | ⟨-, -, hbindings⟩
  · exact absurd ⟨bound, hmatch⟩ h
  · rw [Matching.extend, hbindings]
    rfl

end Pattern

end LiveExpr
