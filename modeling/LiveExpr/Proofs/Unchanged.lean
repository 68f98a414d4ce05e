import LiveExpr.Proofs.Rereading

/-!
# What reads back unchanged

A value that its kinds let pass reads back unchanged if none of its fake values says
where it comes from, its JSON keeps within the limit of nesting and no record in it begins
with the reserved name, and only then: the format holds no sources, beyond the limit
nothing is read, and an object of the reserved name is read as a number if at all.  Main
statement: `read_write_eq_self_iff`.
-/

namespace LiveExpr

namespace Value

mutual

/-- Whether no fake value of the data says where it comes from. -/
def isUnlocated : Value → Bool
  | .list items => itemsAreUnlocated items
  | .record fields => fieldsAreUnlocated fields
  | .just value | .ok value | .error value | .errorRail value => isUnlocated value
  | .response _ _ body => isUnlocated body
  | .incomplete source | .failure source _ => source == .unknown
  | _ => true

/-- Whether no fake value among the items says where it comes from. -/
def itemsAreUnlocated : List Value → Bool
  | [] => true
  | item :: rest => isUnlocated item && itemsAreUnlocated rest

/-- Whether no fake value among the fields says where it comes from. -/
def fieldsAreUnlocated : List (String × Value) → Bool
  | [] => true
  | (_, value) :: rest => isUnlocated value && fieldsAreUnlocated rest

end

end Value

namespace Roundtrip

open Value (isErrorRail isFake IsProper reservedPair)

/-! ### The kinds that are let pass -/

mutual

/-- What reads back without a loss may also be let pass with one. -/
theorem isRoundtrippable_lossy : ∀ value : Value, isRoundtrippable false value = true →
    isRoundtrippable true value = true
  | .list items, h => itemsRoundtrippable_lossy items h
  | .record fields, h => by
      rw [isRoundtrippable, Bool.and_eq_true] at h ⊢
      exact ⟨h.1, fieldsRoundtrippable_lossy fields h.2⟩
  | .just value, h => by
      rw [isRoundtrippable, Bool.and_eq_true] at h
      exact isRoundtrippable_lossy value h.2
  | .ok value, h | .error value, h | .errorRail value, h => isRoundtrippable_lossy value h
  | .response _ _ body, h => isRoundtrippable_lossy body h
  | .int _, h | .float _, h | .bool _, h | .null, h | .char _, h | .str _, h | .date _, h
  | .password _, h | .uuid _, h | .bytes _, h | .db _, h | .nothing, h | .redirect _, h
  | .named _, h | .lambda _ _ _, h | .incomplete _, h | .failure _ _, h => h

theorem itemsRoundtrippable_lossy : ∀ items : List Value,
    itemsRoundtrippable false items = true → itemsRoundtrippable true items = true
  | [], _ => rfl
  | item :: rest, h => by
      rw [itemsRoundtrippable, Bool.and_eq_true, Bool.and_eq_true] at h ⊢
      obtain ⟨⟨-, hitem⟩, hrest⟩ := h
      exact ⟨⟨rfl, isRoundtrippable_lossy item hitem⟩, itemsRoundtrippable_lossy rest hrest⟩

theorem fieldsRoundtrippable_lossy : ∀ fields : List (String × Value),
    fieldsRoundtrippable false fields = true → fieldsRoundtrippable true fields = true
  | [], _ => rfl
  | (_, value) :: rest, h => by
      rw [fieldsRoundtrippable, Bool.and_eq_true] at h ⊢
      exact ⟨isRoundtrippable_lossy value h.1, fieldsRoundtrippable_lossy rest h.2⟩

end

theorem ne_null_of_just {value : Value} (h : isRoundtrippable false (.just value) = true) :
  value ≠ .null
  := by
  rintro rfl
  cases h

/-! ### The normal form -/

mutual

/-- The error rail is not reached from a value that is not fake: no list gives way to an
item. -/
theorem not_isErrorRail_normalForm : ∀ value : Value, isRoundtrippable false value = true →
    isFake value = false → isErrorRail (normalForm value) = false
  | .list items, h, _ => by
      rw [normalForm, Value.ofItems, find?_itemsNormalForm items h]
      rfl
  | .just value, h, _ => by
      rw [normalForm_just (ne_null_of_just h)]
      rfl
  | .incomplete _, _, hfake | .failure _ _, _, hfake | .errorRail _, _, hfake => nomatch hfake
  | .int _, _, _ | .float _, _, _ | .bool _, _, _ | .null, _, _ | .char _, _, _
  | .str _, _, _ | .record _, _, _ | .date _, _, _ | .password _, _, _ | .uuid _, _, _
  | .bytes _, _, _ | .db _, _, _ | .nothing, _, _ | .ok _, _, _ | .error _, _, _
  | .redirect _, _, _ | .response _ _ _, _, _ | .named _, _, _ | .lambda _ _ _, _, _ => rfl

theorem find?_itemsNormalForm : ∀ items : List Value,
    itemsRoundtrippable false items = true →
      (itemsNormalForm items).find? isErrorRail = none
  | [], _ => rfl
  | item :: rest, h => by
      rw [itemsRoundtrippable, Bool.and_eq_true, Bool.and_eq_true] at h
      obtain ⟨⟨hfake, hitem⟩, hrest⟩ := h
      have hrail := not_isErrorRail_normalForm item hitem (Bool.not_eq_true' _ ▸ hfake)
      rw [itemsNormalForm, List.find?_cons_of_neg (by rw [hrail]; decide)]
      exact find?_itemsNormalForm rest hrest

end

mutual

/-- A value that its kinds let pass is its own normal form if no fake value in it says
where it comes from. -/
theorem normalForm_eq_self_iff : ∀ value : Value, isRoundtrippable false value = true →
    (normalForm value = value ↔ value.isUnlocated = true)
  | .list items, h => by
      rw [normalForm, Value.ofItems, find?_itemsNormalForm items h, Value.list.injEq]
      exact itemsNormalForm_eq_self_iff items h
  | .record fields, h => by
      rw [isRoundtrippable, Bool.and_eq_true] at h
      rw [normalForm, Value.record.injEq]
      exact fieldsNormalForm_eq_self_iff fields h.2
  | .just value, h => by
      rw [normalForm_just (ne_null_of_just h), Value.just.injEq]
      rw [isRoundtrippable, Bool.and_eq_true] at h
      exact normalForm_eq_self_iff value h.2
  | .ok value, h => by
      rw [normalForm, Value.ok.injEq]
      exact normalForm_eq_self_iff value h
  | .error value, h => by
      rw [normalForm, Value.error.injEq]
      exact normalForm_eq_self_iff value h
  | .errorRail value, h => by
      rw [normalForm, Value.errorRail.injEq]
      exact normalForm_eq_self_iff value h
  | .response code headers body, h => by
      rw [normalForm, Value.response.injEq, Value.isUnlocated, ← normalForm_eq_self_iff body h,
        and_iff_right rfl, and_iff_right rfl]
  | .incomplete source, _ => by
      rw [normalForm, Value.incomplete.injEq, Value.isUnlocated, beq_iff_eq]
      exact eq_comm
  | .failure source message, _ => by
      rw [normalForm, Value.failure.injEq, and_iff_left rfl, Value.isUnlocated, beq_iff_eq]
      exact eq_comm
  | .int _, _ | .float _, _ | .bool _, _ | .null, _ | .char _, _ | .str _, _ | .date _, _
  | .password _, _ | .uuid _, _ | .bytes _, _ | .db _, _ | .nothing, _ | .redirect _, _
  | .named _, _ | .lambda _ _ _, _ => iff_of_true rfl rfl

theorem itemsNormalForm_eq_self_iff : ∀ items : List Value,
    itemsRoundtrippable false items = true →
      (itemsNormalForm items = items ↔ Value.itemsAreUnlocated items = true)
  | [], _ => iff_of_true rfl rfl
  | item :: rest, h => by
      rw [itemsRoundtrippable, Bool.and_eq_true, Bool.and_eq_true] at h
      obtain ⟨⟨-, hitem⟩, hrest⟩ := h
      rw [itemsNormalForm, List.cons.injEq, normalForm_eq_self_iff item hitem,
        itemsNormalForm_eq_self_iff rest hrest, Value.itemsAreUnlocated, Bool.and_eq_true]

theorem fieldsNormalForm_eq_self_iff : ∀ fields : List (String × Value),
    fieldsRoundtrippable false fields = true →
      (fieldsNormalForm fields = fields ↔ Value.fieldsAreUnlocated fields = true)
  | [], _ => iff_of_true rfl rfl
  | (name, value) :: rest, h => by
      rw [fieldsRoundtrippable, Bool.and_eq_true] at h
      obtain ⟨hvalue, hrest⟩ := h
      have hname : (name, normalForm value) = (name, value) ↔ normalForm value = value := by
        simp
      rw [fieldsNormalForm, List.cons.injEq, hname, normalForm_eq_self_iff value hvalue,
        fieldsNormalForm_eq_self_iff rest hrest, Value.fieldsAreUnlocated, Bool.and_eq_true]

end

/-! ### What is read -/

/-- Beyond the limit of nesting nothing is read. -/
theorem read_write_of_lt {value : Value} (hdepth : Json.depthLimit < (toJson value).nesting) :
  read (write value) = .error .invalidJson
  := by
  rw [read, write, Codec.parseJson_compact_of_deep hdepth]
  rfl

/-- Within the limit of nesting, a value that its kinds let pass reads back unchanged if no
fake value in it says where it comes from and no record in it begins with the reserved
name. -/
theorem read_write_iff_of_le {value : Value} (h : value.IsProper)
    (hback : isRoundtrippable false value = true)
    (hdepth : (toJson value).nesting ≤ Json.depthLimit) :
  read (write value) = .ok value ↔ value.isUnlocated = true ∧ value.isUnreserved = true
  := by
  rcases Bool.eq_false_or_eq_true value.isUnreserved with hname | hname
  · rw [read_write_of_le h hdepth hname,
      ofJson_toJson value h (isRoundtrippable_lossy value hback), Except.ok.injEq,
      normalForm_eq_self_iff value hback]
    exact (and_iff_left hname).symm
  · have hne := Bool.eq_false_iff.mp hname
    exact iff_of_false (fun hread => hne (isUnreserved_of_read_write h hread))
      fun hall => hne hall.2

/-- A value that its kinds let pass reads back unchanged if no fake value in it says where
it comes from, it is not nested too deep and no record in it begins with the reserved
name. -/
theorem read_write_eq_self_iff {value : Value} (h : value.IsProper)
    (hback : isRoundtrippable false value = true) :
  read (write value) = .ok value
    ↔ value.isUnlocated = true ∧ (toJson value).nesting ≤ Json.depthLimit
      ∧ value.isUnreserved = true
  := by
  rcases Nat.lt_or_ge Json.depthLimit (toJson value).nesting with hdeep | hdepth
  · rw [read_write_of_lt hdeep]
    exact iff_of_false nofun fun hall => Nat.not_le.mpr hdeep hall.2.1
  · rw [read_write_iff_of_le h hback hdepth, and_iff_right hdepth]

/-- A record with an option of a list, and a failure on the error rail that does not say
where it comes from. -/
def unlocated : Value :=
  .record [("option", .just (.list [.int 1, .ok .null])),
    ("rail", .errorRail (.failure .unknown "e"))]

/-- The record reads back unchanged. -/
theorem read_write_unlocated :
  unlocated.IsProper ∧ isRoundtrippable false unlocated = true
    ∧ read (write unlocated) = .ok unlocated
  := by
  have hproper : unlocated.IsProper := by
    refine ⟨?_, ⟨trivial, trivial, trivial⟩, trivial, trivial⟩
    exact Fields.ascending_cons_cons (by decide) (Fields.ascending_singleton _)
  exact ⟨hproper, rfl, (read_write_eq_self_iff hproper rfl).mpr ⟨rfl, by decide, by decide⟩⟩

/-- An incomplete value that says where it comes from, 64 results in one another, and a
record of the reserved name are let pass, and none of them reads back unchanged. -/
theorem read_write_ne_self :
  (isRoundtrippable false (.incomplete (.node 1 2)) = true
      ∧ read (write (.incomplete (.node 1 2))) = .ok (.incomplete .unknown)
      ∧ read (write (.incomplete (.node 1 2))) ≠ .ok (.incomplete (.node 1 2)))
    ∧ (isRoundtrippable false (Value.ok^[64] (.int 1)) = true
      ∧ read (write (Value.ok^[64] (.int 1))) = .error .invalidJson)
    ∧ isRoundtrippable false (.record reservedPair) = true
      ∧ read (write (.record reservedPair)) = .ok (.int 5)
  := by
  have hproper : (Value.incomplete (.node 1 2)).IsProper := trivial
  have hread : read (write (.incomplete (.node 1 2))) = .ok (.incomplete .unknown) := by
    rw [read_write_of_le hproper (by decide) rfl]
    exact ofJson_toJson _ hproper rfl
  refine ⟨⟨rfl, hread, ?_⟩, ⟨rfl, read_write_of_lt (by decide +kernel)⟩, rfl, ?_⟩
  · rw [hread]
    nofun
  · rw [read, write, Codec.parseJson, Json.parse?, RawJson.parse?_compact]
    rfl

end Roundtrip

end LiveExpr
