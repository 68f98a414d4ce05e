/-!
# Associations

Finite maps from keys to values, as lists of pairs in the order in which the keys were
first set.  Main statement: `get?_set`, what look-up finds after a change.
-/

namespace LiveExpr

/-- A map from keys to values. -/
abbrev Assoc (κ α : Type) := List (κ × α)

namespace Assoc

variable {κ α : Type} [DecidableEq κ]

/-- The value of a key. -/
def get? (key : κ) : Assoc κ α → Option α
  | [] => none
  | (k, v) :: rest => if k = key then some v else get? key rest

/-- Gives a key a value, instead of the one that it has. -/
def set (key : κ) (value : α) : Assoc κ α → Assoc κ α
  | [] => [(key, value)]
  | (k, v) :: rest => if k = key then (key, value) :: rest else (k, v) :: set key value rest

/-- What look-up finds after a change. -/
theorem get?_set (key other : κ) (value : α) (map : Assoc κ α) :
  get? other (set key value map) = if key = other then some value else get? other map
  := by
  induction map with
  | nil => simp [set, get?]
  | cons pair rest ih =>
    obtain ⟨k, v⟩ := pair
    unfold set
    split
    · next h =>
      subst h
      grind [get?]
    · simp only [get?, ih]
      grind

end Assoc

end LiveExpr
