import LiveExpr.Codec.MachineJson
import LiveExpr.Codec.Queryable
import LiveExpr.Codec.Roundtrip
import LiveExpr.Proofs.Fragments

/-!
# Reserved names

Records whose fields begin with the name that JSON readers reserve for numbers.  Every
representation writes such a record as an object that begins with the name, and only such a
record.  Main statements: `isUnreserved_toJson`, for each representation.
-/

namespace LiveExpr

open Json (startsReserved startsReserved_congr)

namespace Value

mutual

/-- Whether no record of the data begins with the reserved name of numbers. -/
def isUnreserved : Value → Bool
  | .list items => itemsAreUnreserved items
  | .record fields => !startsReserved fields && fieldsAreUnreserved fields
  | .just value | .ok value | .error value | .errorRail value => isUnreserved value
  | .response _ _ body => isUnreserved body
  | _ => true

/-- Whether no record among the items begins with the reserved name. -/
def itemsAreUnreserved : List Value → Bool
  | [] => true
  | item :: rest => isUnreserved item && itemsAreUnreserved rest

/-- Whether no record among the values of fields begins with the reserved name. -/
def fieldsAreUnreserved : List (String × Value) → Bool
  | [] => true
  | (_, value) :: rest => isUnreserved value && fieldsAreUnreserved rest

end

theorem itemsAreUnreserved_iff {items : List Value} :
  itemsAreUnreserved items = true ↔ ∀ item ∈ items, item.isUnreserved = true
  := by
  induction items with
  | nil => simp [itemsAreUnreserved]
  | cons item rest ih => simp [itemsAreUnreserved, ih]

/-- Values without reserved names have none as a list, whichever of them stands for it. -/
theorem isUnreserved_ofItems {items : List Value} (h : itemsAreUnreserved items = true) :
  (ofItems items).isUnreserved = true
  := by
  rw [ofItems]
  split
  · next item hitem => exact itemsAreUnreserved_iff.mp h item (List.mem_of_find?_eq_some hitem)
  · exact h

/-- A record of the reserved name alone, with the text of a number. -/
def reservedPair : List (String × Value) :=
  [(Json.numberKey, .str "5")]

/-- A record that begins with the reserved name and has another field. -/
def reservedRecord : Value :=
  .record [(Json.numberKey, .str "5"), ("a", .int 1)]

/-- An object of which that record is read: the reserved name does not come first. -/
def reservedLast : Json :=
  .object [("a", .ofInt 1), (Json.numberKey, .string "5")]

end Value

/-! ### The round-trip representation -/

namespace Roundtrip

/-- What is written has the names of the fields. -/
theorem names_fieldsToJson (fields : List (String × Value)) :
  (fieldsToJson fields).map Prod.fst = fields.map Prod.fst
  := by
  induction fields with
  | nil => rfl
  | cons field rest ih => rw [fieldsToJson, List.map_cons, List.map_cons, ih]

/-- An envelope does not begin with the reserved name. -/
theorem isUnreserved_envelope (tag : String) (j : Json) :
  (envelope tag j).isUnreserved = j.isUnreserved
  := by
  have hname : ("type" == Json.numberKey) = false := by decide
  simp [envelope, Json.isUnreserved, Json.membersUnreserved, startsReserved, hname]

theorem isUnreserved_resultEnvelope (constructor : String) (j : Json) :
  (resultEnvelope constructor j).isUnreserved = j.isUnreserved
  := by
  have hname : ("constructor" == Json.numberKey) = false := by decide
  simp [resultEnvelope, Json.isUnreserved, Json.itemsUnreserved, Json.membersUnreserved,
    startsReserved, hname]

theorem isUnreserved_responseMeta (code : Int) (headers : List (String × String)) :
  (responseMeta code headers).isUnreserved = true
  := by
  have hname : ("code" == Json.numberKey) = false := by decide
  have hheaders {header : String × String → Json}
      (h : ∀ pair, (header pair).isUnreserved = true) :
      Json.itemsUnreserved (headers.map header) = true := by
    apply Json.itemsUnreserved_iff.mpr
    intro item hitem
    obtain ⟨pair, -, rfl⟩ := List.mem_map.mp hitem
    exact h pair
  simp only [responseMeta, Json.isUnreserved, Json.membersUnreserved, Json.ofInt, startsReserved,
    hname, Bool.not_false, Bool.true_and, Bool.and_true]
  exact hheaders fun _ => rfl

mutual

/-- An object begins with the reserved name where a record of the value does. -/
theorem isUnreserved_toJson : ∀ value : Value, (toJson value).isUnreserved = value.isUnreserved
  | .list items => itemsUnreserved_itemsToJson items
  | .record fields => by
      rw [toJson, Json.isUnreserved, startsReserved_congr (names_fieldsToJson fields),
        membersUnreserved_fieldsToJson fields, Value.isUnreserved]
  | .just value => (isUnreserved_envelope _ _).trans (isUnreserved_toJson value)
  | .errorRail value => (isUnreserved_envelope _ _).trans (isUnreserved_toJson value)
  | .ok value => (isUnreserved_resultEnvelope _ _).trans (isUnreserved_toJson value)
  | .error value => (isUnreserved_resultEnvelope _ _).trans (isUnreserved_toJson value)
  | .response code headers body => by
      rw [toJson, isUnreserved_envelope, Json.isUnreserved, Json.itemsUnreserved,
        isUnreserved_responseMeta, Json.itemsUnreserved, isUnreserved_toJson body,
        Json.itemsUnreserved, Bool.and_true, Bool.true_and, Value.isUnreserved]
  | .float x => by
      rw [toJson, Codec.finiteNumeral?]
      split <;> rfl
  | .int _ | .bool _ | .null | .char _ | .str _ | .date _ | .password _ | .uuid _ | .bytes _
  | .db _ | .nothing | .redirect _ | .named _ | .lambda _ _ _ | .incomplete _
  | .failure _ _ => rfl

theorem itemsUnreserved_itemsToJson : ∀ items : List Value,
    Json.itemsUnreserved (itemsToJson items) = Value.itemsAreUnreserved items
  | [] => rfl
  | item :: rest => by
      rw [itemsToJson, Json.itemsUnreserved, isUnreserved_toJson item,
        itemsUnreserved_itemsToJson rest, Value.itemsAreUnreserved]

theorem membersUnreserved_fieldsToJson : ∀ fields : List (String × Value),
    Json.membersUnreserved (fieldsToJson fields) = Value.fieldsAreUnreserved fields
  | [] => rfl
  | (_, value) :: rest => by
      rw [fieldsToJson, Json.membersUnreserved, isUnreserved_toJson value,
        membersUnreserved_fieldsToJson rest, Value.fieldsAreUnreserved]

end

end Roundtrip

/-! ### The queryable representation -/

namespace Queryable

open Codec (bind_eq_ok map_eq_ok)

mutual

/-- The JSON of a value, where there is one, is that of the round-trip representation. -/
theorem toJson_accords : ∀ (value : Value) (j : Json), toJson value = .ok j →
    Roundtrip.toJson value = j
  | .float x, j, h => by
      rw [toJson] at h
      rw [Roundtrip.toJson]
      cases hx : Codec.finiteNumeral? x with
      | none =>
          rw [hx] at h
          cases h
      | some numeral =>
          rw [hx] at h
          exact Except.ok.inj h
  | .list items, j, h => by
      obtain ⟨js, hjs, rfl⟩ := map_eq_ok h
      rw [Roundtrip.toJson, itemsToJson_accords items js hjs]
  | .record fields, j, h => by
      obtain ⟨members, hmembers, rfl⟩ := map_eq_ok h
      rw [Roundtrip.toJson, fieldsToJson_accords fields members hmembers]
  | .int _, _, h | .bool _, _, h | .null, _, h | .str _, _, h | .date _, _, h
  | .password _, _, h | .uuid _, _, h => Except.ok.inj h
  | .char _, _, h | .bytes _, _, h | .db _, _, h | .just _, _, h | .nothing, _, h
  | .ok _, _, h | .error _, _, h | .redirect _, _, h | .response _ _ _, _, h
  | .named _, _, h | .lambda _ _ _, _, h | .incomplete _, _, h | .failure _ _, _, h
  | .errorRail _, _, h => nomatch h

/-- Likewise the JSON of the items of a list. -/
theorem itemsToJson_accords : ∀ (items : List Value) (js : List Json),
    itemsToJson items = .ok js → Roundtrip.itemsToJson items = js
  | [], _, h => Except.ok.inj h
  | item :: rest, js, h => by
      obtain ⟨j, hitem, hbind⟩ := bind_eq_ok h
      obtain ⟨js, hrest, hjs⟩ := bind_eq_ok hbind
      obtain rfl := Except.ok.inj hjs
      rw [Roundtrip.itemsToJson, toJson_accords item j hitem, itemsToJson_accords rest js hrest]

/-- Likewise the JSON of the fields of a record. -/
theorem fieldsToJson_accords : ∀ (fields : List (String × Value))
    (members : List (String × Json)),
    fieldsToJson fields = .ok members → Roundtrip.fieldsToJson fields = members
  | [], _, h => Except.ok.inj h
  | (name, value) :: rest, members, h => by
      obtain ⟨j, hvalue, hbind⟩ := bind_eq_ok h
      obtain ⟨members, hrest, hmembers⟩ := bind_eq_ok hbind
      obtain rfl := Except.ok.inj hmembers
      rw [Roundtrip.fieldsToJson, toJson_accords value j hvalue,
        fieldsToJson_accords rest members hrest]

end

/-- An object begins with the reserved name where a record of the value does. -/
theorem isUnreserved_toJson {value : Value} {j : Json} (h : toJson value = .ok j) :
  j.isUnreserved = value.isUnreserved
  := by
  rw [← toJson_accords value j h, Roundtrip.isUnreserved_toJson]

end Queryable

/-! ### Machine JSON -/

namespace MachineJson

theorem names_fieldsToJson (fields : List (String × Value)) :
  (fieldsToJson fields).map Prod.fst = fields.map Prod.fst
  := by
  induction fields with
  | nil => rfl
  | cons field rest ih => rw [fieldsToJson, List.map_cons, List.map_cons, ih]

theorem isUnreserved_errorObject (j : Json) :
  (errorObject j).isUnreserved = j.isUnreserved
  := by
  have hname : ("Error" == Json.numberKey) = false := by decide
  simp [errorObject, Json.isUnreserved, Json.membersUnreserved, startsReserved, hname]

mutual

/-- An object begins with the reserved name where a record of the value does. -/
theorem isUnreserved_toJson : ∀ value : Value, (toJson value).isUnreserved = value.isUnreserved
  | .list items => itemsUnreserved_itemsToJson items
  | .record fields => by
      rw [toJson, Json.isUnreserved, startsReserved_congr (names_fieldsToJson fields),
        membersUnreserved_fieldsToJson fields, Value.isUnreserved]
  | .just value | .errorRail value | .ok value | .response _ _ value => by
      rw [toJson, isUnreserved_toJson value, Value.isUnreserved]
  | .error value => (isUnreserved_errorObject _).trans (isUnreserved_toJson value)
  | .failure _ _ | .password _ => isUnreserved_errorObject _
  | .float x => by
      rw [toJson, Codec.finiteNumeral?]
      split <;> rfl
  | .int _ | .bool _ | .null | .char _ | .str _ | .date _ | .uuid _ | .bytes _ | .db _ | .nothing
  | .redirect _ | .named _ | .lambda _ _ _ | .incomplete _ => rfl

theorem itemsUnreserved_itemsToJson : ∀ items : List Value,
    Json.itemsUnreserved (itemsToJson items) = Value.itemsAreUnreserved items
  | [] => rfl
  | item :: rest => by
      rw [itemsToJson, Json.itemsUnreserved, isUnreserved_toJson item,
        itemsUnreserved_itemsToJson rest, Value.itemsAreUnreserved]

theorem membersUnreserved_fieldsToJson : ∀ fields : List (String × Value),
    Json.membersUnreserved (fieldsToJson fields) = Value.fieldsAreUnreserved fields
  | [] => rfl
  | (_, value) :: rest => by
      rw [fieldsToJson, Json.membersUnreserved, isUnreserved_toJson value,
        membersUnreserved_fieldsToJson rest, Value.fieldsAreUnreserved]

end

end MachineJson

end LiveExpr
