import LiveExpr.Value.Basic

/-!
# Equality of values

When two values are equal for a program: equal in kind and part by part, floats compared
as numbers, fake values with their sources, functions with their code and the variables
that they captured.

Records and scopes are maps, and two maps may have entries in common in memory, since a
changed copy shares what did not change.  A comparison passes over what is shared without
a look at it, so that an entry which holds NaN is equal to itself if it is shared, and
not equal to itself otherwise.  Values do not tell what is shared, so it is given beside
them.  Main statement: `equals_eq_same`, that it makes no difference unless both values
hide NaN in a map.
-/

namespace LiveExpr

/-- What maps have in common in memory. -/
structure Sharing where
  /-- Whether entries of two maps with these values are taken to be a common one. -/
  shares : Value → Value → Bool
  eq_of_shares : ∀ a b, shares a b = true → a = b

/-- Maps that have nothing in common. -/
def Sharing.nothing : Sharing where
  shares _ _ := false
  eq_of_shares _ _ h := by cases h

/-- Maps that have all equal floats in common. -/
def Sharing.ofFloats : Sharing where
  shares
    | .float x, .float y => x == y
    | _, _ => false
  eq_of_shares a b h := by
    split at h
    · rw [eq_of_beq h]
    · cases h

namespace Value

mutual

/-- Whether a program takes two values for equal. -/
def equals (sharing : Sharing) : Value → Value → Bool
  | .int a, .int b => a == b
  | .float a, .float b => a.sameNumber b
  | .bool a, .bool b => a == b
  | .null, .null => true
  | .char a, .char b => a == b
  | .str a, .str b => a == b
  | .list as, .list bs => equalItems sharing as bs
  | .record as, .record bs => equalFields sharing as bs
  | .date a, .date b => a == b
  | .password a, .password b => a == b
  | .uuid a, .uuid b => a == b
  | .bytes a, .bytes b => a == b
  | .db a, .db b => a == b
  | .just a, .just b => equals sharing a b
  | .nothing, .nothing => true
  | .ok a, .ok b => equals sharing a b
  | .error a, .error b => equals sharing a b
  | .redirect a, .redirect b => a == b
  | .response a as c, .response b bs d => a == b && as == bs && equals sharing c d
  | .named a, .named b => a == b
  | .lambda ps as e, .lambda qs bs f => ps == qs && equalFields sharing as bs && e.same f
  | .incomplete a, .incomplete b => a == b
  | .failure a m, .failure b n => a == b && m == n
  | .errorRail a, .errorRail b => equals sharing a b
  | _, _ => false

/-- Whether a program takes two lists of values for equal. -/
def equalItems (sharing : Sharing) : List Value → List Value → Bool
  | [], [] => true
  | a :: as, b :: bs => equals sharing a b && equalItems sharing as bs
  | _, _ => false

/-- Whether a program takes two maps for equal. -/
def equalFields (sharing : Sharing) :
    List (String × Value) → List (String × Value) → Bool
  | [], [] => true
  | (m, a) :: as, (n, b) :: bs =>
    m == n && (sharing.shares a b || equals sharing a b) && equalFields sharing as bs
  | _, _ => false

end

/-- Whether two values are equal as far as the values tell. -/
def same (a b : Value) : Bool :=
  a.equals .nothing b

/-! ### Hidden NaN -/

/-- Whether a map holds NaN: nothing else keeps a value from being equal to itself. -/
def holdNaN (fields : List (String × Value)) : Bool :=
  fields.any fun field => !field.2.same field.2

mutual

/-- Whether a record or a captured scope in a value holds NaN. -/
def hidesNaN : Value → Bool
  | .list items => hideNaN items
  | .record fields => holdNaN fields
  | .lambda _ scope _ => holdNaN scope
  | .just value | .ok value | .error value | .errorRail value | .response _ _ value =>
    hidesNaN value
  | _ => false

/-- Whether a record or a captured scope in some values holds NaN. -/
def hideNaN : List Value → Bool
  | [] => false
  | item :: rest => hidesNaN item || hideNaN rest

end

/-- A map that is equal to itself holds no NaN. -/
theorem holdNaN_eq_false {fields : List (String × Value)}
    (h : equalFields .nothing fields fields = true) :
  holdNaN fields = false
  := by
  induction fields with
  | nil => rfl
  | cons field rest ih =>
    simp only [equalFields, Sharing.nothing, Bool.and_eq_true, Bool.false_or] at h
    obtain ⟨⟨-, hfield⟩, hrest⟩ := h
    have hself : field.2.same field.2 = true := hfield
    rw [holdNaN, List.any_cons, hself]
    exact ih hrest

mutual

/-- A value that is equal to itself hides no NaN. -/
theorem hidesNaN_eq_false :
  ∀ {value : Value}, value.same value = true → value.hidesNaN = false
  | .list _, h => hideNaN_eq_false h
  | .record _, h => holdNaN_eq_false h
  | .lambda _ scope _, h => by
    simp only [same, equals, Bool.and_eq_true] at h
    have hscope : holdNaN scope = false := holdNaN_eq_false h.1.2
    exact hscope
  | .just value, h | .ok value, h | .error value, h | .errorRail value, h =>
    have hvalue : value.hidesNaN = false := hidesNaN_eq_false h
    hvalue
  | .response _ _ body, h => by
    simp only [same, equals, Bool.and_eq_true] at h
    have hbody : body.hidesNaN = false := hidesNaN_eq_false h.2
    exact hbody
  | .int _, _ | .float _, _ | .bool _, _ | .null, _ | .char _, _ | .str _, _ | .date _, _
  | .password _, _ | .uuid _, _ | .bytes _, _ | .db _, _ | .nothing, _ | .redirect _, _
  | .named _, _ | .incomplete _, _ | .failure _ _, _ => rfl

/-- A list that is equal to itself hides no NaN. -/
theorem hideNaN_eq_false :
  ∀ {items : List Value}, equalItems .nothing items items = true → hideNaN items = false
  | [], _ => rfl
  | item :: rest, h => by
    simp only [equalItems, Bool.and_eq_true] at h
    have hitem : item.hidesNaN = false := hidesNaN_eq_false h.1
    rw [hideNaN, hitem, hideNaN_eq_false h.2]
    rfl

end

/-- A common entry without NaN is found equal by a look at it, too. -/
theorem shares_or_equals {sharing : Sharing} {a b : Value}
    (h : a.same a = true ∨ b.same b = true)
    (hequals : a.hidesNaN = false ∨ b.hidesNaN = false → a.equals sharing b = a.same b) :
  (sharing.shares a b || a.equals sharing b) = a.same b
  := by
  rw [hequals (h.imp hidesNaN_eq_false hidesNaN_eq_false)]
  cases hshares : sharing.shares a b with
  | false => rfl
  | true =>
    obtain rfl := sharing.eq_of_shares a b hshares
    exact (h.elim id id).symm

/-- What maps share makes no difference to the comparison of two values of which one hides
no NaN. -/
theorem equals_eq_same (sharing : Sharing) :
  ∀ {a b : Value}, a.hidesNaN = false ∨ b.hidesNaN = false → a.equals sharing b = a.same b
  := by
  apply equals.induct
    (fun a b => a.hidesNaN = false ∨ b.hidesNaN = false → a.equals sharing b = a.same b)
    (fun as bs => holdNaN as = false ∨ holdNaN bs = false →
      equalFields sharing as bs = equalFields .nothing as bs)
    (fun as bs => hideNaN as = false ∨ hideNaN bs = false →
      equalItems sharing as bs = equalItems .nothing as bs)
  case case27 =>
    intro a as b bs hitem hrest h
    simp only [hideNaN, Bool.or_eq_false_iff] at h
    rw [equalItems, equalItems, hitem (h.imp And.left And.left),
      hrest (h.imp And.right And.right), same]
  case case30 =>
    intro m a as n b bs hentry hrest h
    simp only [holdNaN, List.any_cons, Bool.or_eq_false_iff, Bool.not_eq_false'] at h
    rw [equalFields, equalFields, shares_or_equals (h.imp And.left And.left) hentry,
      hrest (h.imp And.right And.right)]
    rfl
  -- The other cases have at most one part that is compared in the same way.
  all_goals
    intros
    rename_i h
    simp_all [same, equals, hidesNaN, equalItems, equalFields]

end Value

end LiveExpr
