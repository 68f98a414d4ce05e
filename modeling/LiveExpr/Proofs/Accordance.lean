import LiveExpr.Proofs.Stored
import LiveExpr.Proofs.Unchanged

/-!
# The two formats of stored data

The queryable and the round-trip representation were designed for different stores and
keep different values.  On what the queryable one writes they are one format: the texts
are the same, whatever the record holds.  The readers tell envelopes from records by
different rules; they agree on the text of a record of values that both representations
let pass, if no record begins with the reserved name.  Main statement: `write_accords`.
-/

namespace LiveExpr

/-! ### Writing -/

namespace Queryable

open Codec (bind_eq_ok map_eq_ok)

/-- A value that is written is a record, and its text is that of its JSON in the
round-trip representation. -/
theorem roundtrip_write_of_write {value : Value} {text : String} (h : write value = .ok text) :
  Roundtrip.write value = text
  := by
  cases value with
  | record fields =>
      obtain ⟨members, hmembers, rfl⟩ := map_eq_ok h
      rw [Roundtrip.write, Roundtrip.toJson, fieldsToJson_accords fields members hmembers]
  | _ => cases h

/-! ### Kinds that both representations let pass -/

mutual

/-- No fake value may be stored, and so none that says where it comes from. -/
theorem isUnlocated_of_isQueryable : ∀ value : Value, isQueryable value = true →
    value.isUnlocated = true
  | .list items, h => itemsAreUnlocated_of_itemsQueryable items h
  | .record fields, h => by
      rw [isQueryable, Bool.and_eq_true] at h
      exact fieldsAreUnlocated_of_fieldsQueryable fields h.2
  | .int _, _ | .float _, _ | .bool _, _ | .null, _ | .str _, _ | .date _, _
  | .password _, _ | .uuid _, _ => rfl
  | .char _, h | .bytes _, h | .db _, h | .just _, h | .nothing, h | .ok _, h | .error _, h
  | .redirect _, h | .response _ _ _, h | .named _, h | .lambda _ _ _, h | .incomplete _, h
  | .failure _ _, h | .errorRail _, h => nomatch h

theorem itemsAreUnlocated_of_itemsQueryable : ∀ items : List Value,
    itemsQueryable items = true → Value.itemsAreUnlocated items = true
  | [], _ => rfl
  | item :: rest, h => by
      rw [itemsQueryable, Bool.and_eq_true] at h
      rw [Value.itemsAreUnlocated, isUnlocated_of_isQueryable item h.1,
        itemsAreUnlocated_of_itemsQueryable rest h.2]
      rfl

theorem fieldsAreUnlocated_of_fieldsQueryable : ∀ fields : List (String × Value),
    fieldsQueryable fields = true → Value.fieldsAreUnlocated fields = true
  | [], _ => rfl
  | (_, value) :: rest, h => by
      rw [fieldsQueryable, Bool.and_eq_true] at h
      rw [Value.fieldsAreUnlocated, isUnlocated_of_isQueryable value h.1,
        fieldsAreUnlocated_of_fieldsQueryable rest h.2]
      rfl

end

end Queryable

namespace Roundtrip

open Value (hasWholeSeconds itemsHaveWholeSeconds fieldsHaveWholeSeconds)

mutual

/-- What reads back has dates of whole seconds only. -/
theorem hasWholeSeconds_of_isRoundtrippable : ∀ value : Value,
    isRoundtrippable false value = true → hasWholeSeconds value = true
  | .date _, h => h
  | .list items, h => itemsHaveWholeSeconds_of_itemsRoundtrippable items h
  | .record fields, h => by
      rw [isRoundtrippable, Bool.and_eq_true] at h
      exact fieldsHaveWholeSeconds_of_fieldsRoundtrippable fields h.2
  | .just value, h => by
      rw [isRoundtrippable, Bool.and_eq_true] at h
      exact hasWholeSeconds_of_isRoundtrippable value h.2
  | .ok value, h | .error value, h | .errorRail value, h =>
      hasWholeSeconds_of_isRoundtrippable value h
  | .response _ _ body, h => hasWholeSeconds_of_isRoundtrippable body h
  | .int _, _ | .float _, _ | .bool _, _ | .null, _ | .char _, _ | .str _, _
  | .password _, _ | .uuid _, _ | .bytes _, _ | .db _, _ | .nothing, _ | .redirect _, _
  | .named _, _ | .lambda _ _ _, _ | .incomplete _, _ | .failure _ _, _ => rfl

theorem itemsHaveWholeSeconds_of_itemsRoundtrippable : ∀ items : List Value,
    itemsRoundtrippable false items = true → itemsHaveWholeSeconds items = true
  | [], _ => rfl
  | item :: rest, h => by
      rw [itemsRoundtrippable, Bool.and_eq_true, Bool.and_eq_true] at h
      obtain ⟨⟨-, hitem⟩, hrest⟩ := h
      rw [itemsHaveWholeSeconds, hasWholeSeconds_of_isRoundtrippable item hitem,
        itemsHaveWholeSeconds_of_itemsRoundtrippable rest hrest]
      rfl

theorem fieldsHaveWholeSeconds_of_fieldsRoundtrippable : ∀ fields : List (String × Value),
    fieldsRoundtrippable false fields = true → fieldsHaveWholeSeconds fields = true
  | [], _ => rfl
  | (_, value) :: rest, h => by
      rw [fieldsRoundtrippable, Bool.and_eq_true] at h
      rw [fieldsHaveWholeSeconds, hasWholeSeconds_of_isRoundtrippable value h.1,
        fieldsHaveWholeSeconds_of_fieldsRoundtrippable rest h.2]
      rfl

end

end Roundtrip

/-! ### Reading -/

namespace Queryable

open Value (reservedPair)

/-- Wherever the queryable representation of a record is written, the round-trip one is
the same text; and if both let the record pass and the text is not nested too deep, each
reader gives the record back if and only if no record in it begins with the reserved
name. -/
theorem write_accords {fields : List (String × Value)} {text : String}
    (h : write (.record fields) = .ok text) :
  Roundtrip.write (.record fields) = text
    ∧ ((Value.record fields).IsProper → fieldsQueryable fields = true →
      Roundtrip.isRoundtrippable false (.record fields) = true →
      (Roundtrip.toJson (.record fields)).nesting ≤ Json.depthLimit →
        (Roundtrip.read text = .ok (.record fields)
            ↔ (Value.record fields).isUnreserved = true)
          ∧ (read text = .ok (.record fields) ↔ (Value.record fields).isUnreserved = true))
  := by
  have htext := roundtrip_write_of_write h
  refine ⟨htext, fun hproper hstorable hback hdepth => ⟨?_, ?_⟩⟩
  · rw [← htext, Roundtrip.read_write_iff_of_le hproper hback hdepth]
    exact and_iff_right (fieldsAreUnlocated_of_fieldsQueryable fields hstorable)
  · have hseconds := Roundtrip.hasWholeSeconds_of_isRoundtrippable _ hback
    obtain ⟨members, hmembers⟩ := exists_areStoredAs fields hproper.2 hstorable hseconds
    have hjson : Roundtrip.toJson (.record fields) = .object members := by
      apply toJson_accords
      rw [toJson, hmembers.toJson_eq]
      rfl
    have hcompact : (Json.object members).compact = text :=
      Except.ok.inj (hmembers.write_eq.symm.trans h)
    rw [hjson] at hdepth
    rw [← hcompact]
    exact hmembers.read_iff hproper.1 hdepth

/-- A record with each kind of envelope, in a list and in a record. -/
def account : List (String × Value) :=
  [("id", .uuid ⟨7⟩),
    ("logins", .list [.date ⟨1577934245, 0⟩, .null]),
    ("secret", .record [("hash", .password [1, 2]), ("type", .str "bcrypt")])]

/-- The record is written alike and read back by both. -/
theorem write_account :
  ∃ text, write (.record account) = .ok text ∧ Roundtrip.write (.record account) = text
    ∧ Roundtrip.read text = .ok (.record account) ∧ read text = .ok (.record account)
  := by
  have hproper : (Value.record account).IsProper := by
    refine ⟨?_, trivial, ⟨rfl, trivial, trivial⟩, ⟨?_, trivial, rfl, trivial⟩, trivial⟩
    · apply Fields.ascending_cons_cons (by decide)
      apply Fields.ascending_cons_cons (by decide)
      exact Fields.ascending_singleton _
    · apply Fields.ascending_cons_cons (by decide)
      exact Fields.ascending_singleton _
  have hwrite : write (.record account)
      = .ok (Roundtrip.toJson (.record account)).compact := rfl
  obtain ⟨halike, hread⟩ := write_accords hwrite
  obtain ⟨hroundtrip, hqueryable⟩ := hread hproper rfl rfl (by decide)
  exact ⟨_, hwrite, halike, hroundtrip.mpr (by decide), hqueryable.mpr (by decide)⟩

/-- The record of the reserved name passes both representations and is written alike, and
the text states a number to both readers. -/
theorem write_reservedPair :
  fieldsQueryable reservedPair = true
    ∧ Roundtrip.isRoundtrippable false (.record reservedPair) = true
    ∧ ∃ text, write (.record reservedPair) = .ok text
      ∧ Roundtrip.write (.record reservedPair) = text
      ∧ Roundtrip.read text = .ok (.int 5) ∧ read text = .error (.notAnObject "number")
  := by
  refine ⟨rfl, rfl, _, rfl, rfl, ?_, ?_⟩
  · rw [Roundtrip.read, Codec.parseJson, Json.parse?, RawJson.parse?_compact]
    rfl
  · rw [read, Codec.parseJson, Json.parse?, RawJson.parse?_compact]
    rfl

end Queryable

end LiveExpr
