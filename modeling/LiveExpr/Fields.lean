/-!
# Fields

Finite maps from names to values, as lists of pairs with ascending names: insertion,
look-up and the map of a list of pairs, in which the last pair of a name counts.  Main
statements: `get?_insert`, what look-up finds after an insertion, `All.ofPairs`, what
holds of all values of such a map, and `ascending_ofPairs`, its names ascend.
-/

namespace LiveExpr

/-- A map from names to values, as pairs with ascending names. -/
abbrev Fields (α : Type) := List (String × α)

namespace Fields

variable {α β : Type}

/-- The value of a name. -/
def get? (name : String) : Fields α → Option α
  | [] => none
  | (k, v) :: rest => if k = name then some v else get? name rest

/-- Gives a name a value, instead of the one that it has. -/
def insert (name : String) (value : α) : Fields α → Fields α
  | [] => [(name, value)]
  | (k, v) :: rest =>
    if name = k then (name, value) :: rest
    else if name < k then (name, value) :: (k, v) :: rest
    else (k, v) :: insert name value rest

/-- Extends a map by pairs, the first of them first. -/
def extend (fields : Fields α) (pairs : List (String × α)) : Fields α :=
  pairs.foldl (fun fields pair => fields.insert pair.1 pair.2) fields

/-- The map of a list of pairs; the last pair of a name counts. -/
def ofPairs (pairs : List (String × α)) : Fields α :=
  extend [] pairs

/-- The names, in ascending order. -/
def names (fields : Fields α) : List String :=
  fields.map Prod.fst

/-- Whether the names ascend, so that each occurs once. -/
def Ascending (fields : Fields α) : Prop :=
  fields.Pairwise fun a b => a.1 < b.1

/-- What look-up finds after an insertion. -/
theorem get?_insert (fields : Fields α) (name other : String) (value : α) :
  (fields.insert name value).get? other
    = if name = other then some value else fields.get? other
  := by
  induction fields with
  | nil => simp [insert, get?]
  | cons pair rest ih =>
    obtain ⟨k, v⟩ := pair
    unfold insert
    split
    · next h =>
      subst h
      grind [get?]
    · next h =>
      split
      · simp only [get?]
      · simp only [get?, ih]
        grind

/-- A pair of a map after an insertion is the new one or an old one. -/
theorem mem_insert {fields : Fields α} {name : String} {value : α}
    {pair : String × α} (h : pair ∈ fields.insert name value) :
  pair = (name, value) ∨ pair ∈ fields
  := by
  induction fields with
  | nil => simpa [insert] using h
  | cons head rest ih =>
    obtain ⟨k, v⟩ := head
    unfold insert at h
    split at h
    · simp only [List.mem_cons] at h ⊢
      grind
    · split at h
      · simp only [List.mem_cons] at h ⊢
        grind
      · simp only [List.mem_cons] at h ⊢
        grind

/-! ### All values -/

/-- Whether all values of a map meet a predicate. -/
def All (p : α → Prop) (fields : Fields α) : Prop :=
  ∀ pair ∈ fields, p pair.2

variable {p : α → Prop} {fields : Fields α}

theorem All.nil :
  All p ([] : Fields α)
  := by
  intro _ h
  cases h

theorem All.insert {name : String} {value : α} (h : All p fields) (hv : p value) :
  All p (fields.insert name value)
  := by
  intro pair hp
  rcases mem_insert hp with rfl | hp
  · exact hv
  · exact h pair hp

theorem All.extend {pairs : List (String × α)} (h : All p fields)
    (hp : ∀ pair ∈ pairs, p pair.2) :
  All p (fields.extend pairs)
  := by
  induction pairs generalizing fields with
  | nil => exact h
  | cons pair pairs ih =>
    apply ih (h.insert (hp pair List.mem_cons_self))
    intro other ho
    exact hp other (List.mem_cons_of_mem pair ho)

theorem All.ofPairs {pairs : List (String × α)} (hp : ∀ pair ∈ pairs, p pair.2) :
  All p (ofPairs pairs)
  := All.nil.extend hp

theorem All.get? {name : String} {value : α} (h : All p fields)
    (hv : fields.get? name = some value) :
  p value
  := by
  induction fields with
  | nil => cases hv
  | cons pair rest ih =>
    simp only [Fields.get?] at hv
    split at hv
    · obtain rfl := Option.some.inj hv
      exact h pair List.mem_cons_self
    · apply ih _ hv
      intro other ho
      exact h other (List.mem_cons_of_mem pair ho)

theorem All.mono {q : α → Prop} (h : All p fields) (hpq : ∀ value, p value → q value) :
  All q fields
  := fun pair hp => hpq pair.2 (h pair hp)

/-! ### Order -/

theorem ascending_singleton (pair : String × α) :
  Ascending [pair]
  := List.pairwise_singleton _ pair

/-- Names ascend if the first is before the second and the others ascend. -/
theorem ascending_cons_cons {name other : String} {value second : α} {rest : Fields α}
    (h : name < other) (hrest : Ascending ((other, second) :: rest)) :
  Ascending ((name, value) :: (other, second) :: rest)
  := by
  apply List.pairwise_cons.mpr
  refine ⟨List.forall_mem_cons.mpr ⟨h, fun pair hp => ?_⟩, hrest⟩
  exact String.lt_trans h ((List.pairwise_cons.mp hrest).1 pair hp)

/-- An insertion keeps the names ascending. -/
theorem ascending_insert {fields : Fields α} (h : fields.Ascending) (name : String)
    (value : α) :
  (fields.insert name value).Ascending
  := by
  induction fields with
  | nil => simp [insert, Ascending]
  | cons head rest ih =>
    obtain ⟨k, v⟩ := head
    unfold Ascending at h ih ⊢
    rw [List.pairwise_cons] at h
    obtain ⟨hhead, hrest⟩ := h
    unfold insert
    split
    · next hk => subst hk; exact List.pairwise_cons.2 ⟨hhead, hrest⟩
    · next hk =>
      split
      · next hlt =>
        refine List.pairwise_cons.2 ⟨fun pair hp => ?_, List.pairwise_cons.2 ⟨hhead, hrest⟩⟩
        rcases List.mem_cons.1 hp with rfl | hp
        · exact hlt
        · exact String.lt_trans hlt (hhead pair hp)
      · next hlt =>
        refine List.pairwise_cons.2 ⟨fun pair hp => ?_, ih hrest⟩
        rcases mem_insert hp with rfl | hp
        · exact Std.lt_of_le_of_ne (String.not_lt.1 hlt) (Ne.symm hk)
        · exact hhead pair hp

/-- Extending a map by pairs keeps the names ascending. -/
theorem ascending_extend {fields : Fields α} (h : fields.Ascending)
    (pairs : List (String × α)) :
  (fields.extend pairs).Ascending
  := by
  induction pairs generalizing fields with
  | nil => exact h
  | cons pair pairs ih => exact ih (ascending_insert h pair.1 pair.2)

/-- The names of the map of a list of pairs ascend. -/
theorem ascending_ofPairs (pairs : List (String × α)) :
  (ofPairs pairs).Ascending
  := by
  exact ascending_extend List.Pairwise.nil pairs

/-- Other values leave the names ascending. -/
theorem ascending_map {fields : Fields α} (h : fields.Ascending) (f : α → β) :
  Fields.Ascending (fields.map fun pair => (pair.1, f pair.2))
  := List.pairwise_map.mpr h

/-- Inserting a name after all others appends it. -/
theorem insert_of_last {fields : Fields α} {name : String} (value : α)
    (h : ∀ pair ∈ fields, pair.1 < name) :
  fields.insert name value = fields ++ [(name, value)]
  := by
  induction fields with
  | nil => rfl
  | cons head rest ih =>
    obtain ⟨k, v⟩ := head
    have hk : k < name := h (k, v) List.mem_cons_self
    have hrest : ∀ pair ∈ rest, pair.1 < name := fun pair hp =>
      h pair (List.mem_cons_of_mem _ hp)
    have hne : name ≠ k := fun heq => String.lt_irrefl k (heq ▸ hk)
    rw [insert, if_neg hne, if_neg (String.lt_asymm hk), ih hrest]
    rfl

/-- Extending a map by later names appends them. -/
theorem extend_of_ascending {fields pairs : Fields α} (h : (fields ++ pairs).Ascending) :
  fields.extend pairs = fields ++ pairs
  := by
  induction pairs generalizing fields with
  | nil => exact (List.append_nil fields).symm
  | cons pair pairs ih =>
    obtain ⟨name, value⟩ := pair
    have hlast : ∀ pair ∈ fields, pair.1 < name := by
      intro pair hp
      exact (List.pairwise_append.mp h).2.2 pair hp (name, value) List.mem_cons_self
    have happend : fields ++ (name, value) :: pairs = fields ++ [(name, value)] ++ pairs := by
      simp
    rw [happend] at h ⊢
    rw [← ih h, ← insert_of_last value hlast]
    rfl

/-- A list of pairs with ascending names is its own map. -/
theorem ofPairs_of_ascending {pairs : Fields α} (h : pairs.Ascending) :
  ofPairs pairs = pairs
  := extend_of_ascending h

end Fields

end LiveExpr
