import LiveExpr.Proofs.Parts
import LiveExpr.Proofs.Stored
import LiveExpr.Proofs.Words

/-!
# Records that were stored

A record that was read from an indexed store is written again, and read again as the same
record, whatever it was read from: objects that only resemble envelopes, dates and UUIDs in
any spelling.  Only a number too great for a float is in the way, and a record that begins
with the reserved name.  Main statement: `read_write_stored`.
-/

namespace LiveExpr.Queryable

open Codec (bind_eq_ok map_eq_ok)
open Json (ItemsSorted MembersSorted itemsNesting membersNesting)
open Value (reservedLast reservedRecord)

/-- Whether a value is no float that is infinite or not a number. -/
def IsFinite : Value → Prop
  | .float x => x.isFinite = true
  | _ => True

/-- Whether a value is as it was read from a JSON value: it is not on the error rail, it is
stored as deep as that is nested, and it is a string only if that is one. -/
structure IsReading (j : Json) (value : Value) : Prop where
  isErrorRail : value.isErrorRail = false
  stored : value.Every IsFinite → ∃ back, IsStoredAs value back ∧ back.nesting = j.nesting
  spelling : ∀ text, value = .str text → ∃ spelling, j = .string spelling
    ∧ text = Text.nfc spelling

theorem IsStoredAs.isErrorRail {value : Value} {j : Json} (h : IsStoredAs value j) :
  value.isErrorRail = false
  := by
  cases value with
  | errorRail => exact nomatch h.toJson_eq
  | _ => rfl

/-! ### Values without parts -/

theorem IsStoredAs.isReading {value : Value} {j back : Json} (h : IsStoredAs value back)
    (hnesting : back.nesting = j.nesting) (hstr : ∀ text, value ≠ .str text) :
  IsReading j value where
  isErrorRail := h.isErrorRail
  stored _ := ⟨back, h, hnesting⟩
  spelling text htext := (hstr text htext).elim

theorem isReading_number (n : Numeral) :
  IsReading (.number n) (Codec.ofNumeral n)
  := by
  rw [Codec.ofNumeral]
  split
  · exact (isStoredAs_int _).isReading rfl (by rintro _ ⟨⟩)
  · refine ⟨rfl, fun hfinite => ⟨_, isStoredAs_float hfinite.self, rfl⟩, ?_⟩
    rintro _ ⟨⟩

theorem isReading_string (text : String) :
  IsReading (.string text) (.ofText text) where
  isErrorRail := rfl
  stored _ := ⟨_, isStoredAs_str (Value.isProper_ofText text), rfl⟩
  spelling _ h := ⟨text, rfl, (Value.str.inj h).symm⟩

theorem nesting_envelope (tag text spelling : String) :
  (envelope tag text).nesting = (envelope tag spelling).nesting
  := rfl

/-- What an envelope holds is stored in an envelope. -/
theorem isReading_envelope {tag text : String} {value : Value}
    (h : readEnvelope tag text = .ok value) :
  IsReading (envelope tag text) value
  := by
  unfold readEnvelope at h
  split at h
  · rw [Codec.readDate] at h
    split at h
    · next moment hmoment =>
      obtain rfl := Except.ok.inj h
      obtain ⟨-, hday⟩ := Timestamp.isValid_of_ofIso? hmoment
      have hproper : (Value.date moment.truncate).IsProper := hday
      refine (isStoredAs_date hproper rfl).isReading (nesting_envelope _ _ _) ?_
      rintro _ ⟨⟩
    · cases h
  · obtain ⟨secret, rfl⟩ := Codec.readBytes_map h
    refine (isStoredAs_password secret).isReading (nesting_envelope _ _ _) ?_
    rintro _ ⟨⟩
  · rw [Codec.readUuid] at h
    split at h
    · next id _ =>
      obtain rfl := Except.ok.inj h
      refine (isStoredAs_uuid id).isReading (nesting_envelope _ _ _) ?_
      rintro _ ⟨⟩
    · cases h
  · cases h

/-! ### Lists -/

/-- Whether values are as they were read from the items of an array. -/
def ItemsAreReadings (items : List Json) (values : List Value) : Prop :=
  List.Forall₂ IsReading items values

theorem ItemsAreReadings.find? {items : List Json} {values : List Value}
    (h : ItemsAreReadings items values) :
  values.find? Value.isErrorRail = none
  := by
  induction h with
  | nil => rfl
  | cons hitem _ ih =>
    rw [List.find?_cons_of_neg (Bool.eq_false_iff.mp hitem.isErrorRail), ih]

theorem ItemsAreReadings.stored {items : List Json} {values : List Value}
    (h : ItemsAreReadings items values) (hfinite : ∀ value ∈ values, value.Every IsFinite) :
  ∃ backs, ItemsAreStoredAs values backs ∧ itemsNesting backs = itemsNesting items
  := by
  induction h with
  | nil => exact ⟨[], .nil, rfl⟩
  | cons hitem _ ih =>
    obtain ⟨hvalue, hrest⟩ := List.forall_mem_cons.mp hfinite
    obtain ⟨back, hback, hnesting⟩ := hitem.stored hvalue
    obtain ⟨backs, hbacks, hnestings⟩ := ih hrest
    refine ⟨back :: backs, .cons hback hbacks, ?_⟩
    rw [itemsNesting, itemsNesting, hnesting, hnestings]

theorem isReading_array {items : List Json} {values : List Value}
    (h : ItemsAreReadings items values) :
  IsReading (.array items) (.ofItems values)
  := by
  have hlist : Value.ofItems values = .list values := by rw [Value.ofItems, h.find?]
  rw [hlist]
  refine ⟨rfl, fun hfinite => ?_, by rintro _ ⟨⟩⟩
  obtain ⟨backs, hbacks, hnesting⟩ := h.stored (Value.every_iff.mp hfinite).2
  exact ⟨_, isStoredAs_list hbacks h.find?, congrArg Nat.succ hnesting⟩

/-! ### Records -/

/-- Whether fields are as they were read from members. -/
def AreReadings (members : List (String × Json)) (fields : List (String × Value)) : Prop :=
  List.Forall₂ (fun member field => member.1 = field.1 ∧ IsReading member.2 field.2) members
    fields

variable {members : List (String × Json)} {fields : List (String × Value)}

theorem AreReadings.ascending (h : AreReadings members fields)
    (hascending : Fields.Ascending members) :
  Fields.Ascending fields
  := Fields.ascending_of_forall₂ h hascending

theorem AreReadings.stored (h : AreReadings members fields)
    (hfinite : ∀ field ∈ fields, field.2.Every IsFinite) :
  ∃ backs, AreStoredAs fields backs ∧ membersNesting backs = membersNesting members
  := by
  induction h with
  | nil => exact ⟨[], .nil, rfl⟩
  | @cons member _ _ _ hfield _ ih =>
    obtain ⟨hvalue, hrest⟩ := List.forall_mem_cons.mp hfinite
    obtain ⟨back, hback, hnesting⟩ := hfield.2.stored hvalue
    obtain ⟨backs, hbacks, hnestings⟩ := ih hrest
    refine ⟨(member.1, back) :: backs, .cons ⟨hfield.1.symm, hback⟩ hbacks, ?_⟩
    rw [membersNesting, membersNesting, hnesting, hnestings]

/-- The fields of an envelope are read from its members alone: the tags are words that no
other text is read as. -/
theorem AreReadings.eq_envelope {tag text : String} (htag : tag ∈ tags)
    (h : AreReadings members [("type", .str tag), ("value", .str text)]) :
  ∃ spelling, members = [("type", .string tag), ("value", .string spelling)]
  := by
  obtain ⟨⟨name, type⟩, rest, ⟨rfl, htype⟩, hrest, rfl⟩ := List.forall₂_cons_right_iff.mp h
  obtain ⟨⟨name, value⟩, rest, ⟨rfl, hvalue⟩, hnil, rfl⟩ :=
    List.forall₂_cons_right_iff.mp hrest
  obtain rfl := List.forall₂_nil_right_iff.mp hnil
  obtain ⟨word, rfl, hword⟩ := htype.spelling _ rfl
  obtain ⟨spelling, rfl, -⟩ := hvalue.spelling _ rfl
  have hwords : tags.all (fun tag => tag.toList.all Text.isSmallLetter) = true := by decide
  have hletters : ∀ c ∈ tag.toList, Text.isSmallLetter c = true :=
    List.all_eq_true.mp (List.all_eq_true.mp hwords tag htag)
  obtain rfl := Text.eq_of_nfc_eq hletters hword.symm
  exact ⟨spelling, rfl⟩

/-- Members that are no envelope are read as a record that is not stored as one. -/
theorem isReading_object (h : AreReadings members fields)
    (hascending : Fields.Ascending members)
    (hother : ∀ tag ∈ tags, ∀ text,
      members ≠ [("type", .string tag), ("value", .string text)]) :
  IsReading (.object members) (.record fields)
  := by
  refine ⟨rfl, fun hfinite => ?_, by rintro _ ⟨⟩⟩
  obtain ⟨backs, hbacks, hnesting⟩ := h.stored fun field hfield =>
    (Value.every_iff.mp hfinite).2 _ (List.mem_map_of_mem hfield)
  refine ⟨_, isStoredAs_record hbacks (h.ascending hascending) ?_, congrArg Nat.succ hnesting⟩
  rintro tag htag text rfl
  obtain ⟨spelling, hmembers⟩ := h.eq_envelope htag
  exact hother tag htag spelling hmembers

/-! ### What is read -/

mutual

/-- A JSON value is read as a value that is stored, and as a string only if it is one. -/
theorem isReading_ofJson : ∀ (j : Json) {value : Value}, j.Sorted → ofJson j = .ok value →
    IsReading j value
  | .null, _, _, h => by
      rw [ofJson] at h
      obtain rfl := Except.ok.inj h
      have hnull : IsStoredAs .null .null := ⟨rfl, by rw [ofJson], trivial⟩
      exact hnull.isReading rfl (by rintro _ ⟨⟩)
  | .bool b, _, _, h => by
      rw [ofJson] at h
      obtain rfl := Except.ok.inj h
      have hbool : IsStoredAs (.bool b) (.bool b) := ⟨rfl, by rw [ofJson], trivial⟩
      exact hbool.isReading rfl (by rintro _ ⟨⟩)
  | .number n, _, _, h => by
      rw [ofJson] at h
      obtain rfl := Except.ok.inj h
      exact isReading_number n
  | .string text, _, _, h => by
      rw [ofJson] at h
      obtain rfl := Except.ok.inj h
      exact isReading_string text
  | .array items, _, hsorted, h => by
      rw [ofJson] at h
      obtain ⟨values, hvalues, rfl⟩ := map_eq_ok h
      exact isReading_array (itemsAreReadings_itemsOfJson items hsorted hvalues)
  | .object members, _, hsorted, h => by
      rcases Classical.em (∃ tag ∈ tags, ∃ text,
          members = [("type", Json.string tag), ("value", Json.string text)])
        with ⟨tag, htag, text, rfl⟩ | hother
      · rw [ofJson, if_pos htag] at h
        exact isReading_envelope h
      · rw [ofJson_object fun tag text hmembers htag => hother ⟨tag, htag, text, hmembers⟩] at h
        obtain ⟨fields, hfields, rfl⟩ := map_eq_ok h
        apply isReading_object (areReadings_membersOfJson members hsorted.2 hfields) hsorted.1
        exact fun tag htag text hmembers => hother ⟨tag, htag, text, hmembers⟩

theorem itemsAreReadings_itemsOfJson : ∀ (items : List Json) {values : List Value},
    ItemsSorted items → itemsOfJson items = .ok values → ItemsAreReadings items values
  | [], _, _, h => by
      obtain rfl := Except.ok.inj h
      exact .nil
  | item :: rest, _, hsorted, h => by
      rw [itemsOfJson] at h
      obtain ⟨value, hvalue, h⟩ := bind_eq_ok h
      obtain ⟨values, hvalues, h⟩ := bind_eq_ok h
      obtain rfl := Except.ok.inj h
      exact .cons (isReading_ofJson item hsorted.1 hvalue)
        (itemsAreReadings_itemsOfJson rest hsorted.2 hvalues)

theorem areReadings_membersOfJson : ∀ (members : List (String × Json))
    {fields : List (String × Value)}, MembersSorted members →
      membersOfJson members = .ok fields → AreReadings members fields
  | [], _, _, h => by
      obtain rfl := Except.ok.inj h
      exact .nil
  | (name, member) :: rest, _, hsorted, h => by
      rw [membersOfJson] at h
      obtain ⟨value, hvalue, h⟩ := bind_eq_ok h
      obtain ⟨fields, hfields, h⟩ := bind_eq_ok h
      obtain rfl := Except.ok.inj h
      exact .cons ⟨rfl, isReading_ofJson member hsorted.1 hvalue⟩
        (areReadings_membersOfJson rest hsorted.2 hfields)

end

/-- A record that was read is written, and what is written is read as the record if and only
if no record in it begins with the reserved name. -/
theorem read_write_stored {text : String} {value : Value} (hread : read text = .ok value)
    (hfinite : value.Every IsFinite) :
  ∃ stored, write value = .ok stored
    ∧ (read stored = .ok value ↔ value.isUnreserved = true)
  := by
  obtain ⟨j, hparse, hvalue⟩ := bind_eq_ok hread
  obtain ⟨hsorted, hdepth⟩ := Codec.sorted_and_nesting_of_parseJson hparse
  cases j with
  | object members =>
    obtain ⟨fields, hfields, rfl⟩ := map_eq_ok hvalue
    have hreadings := areReadings_membersOfJson members hsorted.2 hfields
    obtain ⟨backs, hbacks, hnesting⟩ := hreadings.stored fun field hfield =>
      (Value.every_iff.mp hfinite).2 _ (List.mem_map_of_mem hfield)
    have hback : (Json.object backs).nesting ≤ Json.depthLimit := by
      rw [Json.nesting, hnesting]
      exact hdepth
    exact ⟨_, hbacks.write_eq, hbacks.read_iff (hreadings.ascending hsorted.1) hback⟩
  | _ => cases hvalue

/-- A date in an unusual spelling, and an object that only resembles the envelope of one. -/
def letter : Json :=
  .object
    [("a", .array [envelope "date" "2020-1-2T 3:4:5Z"]),
      ("b", .object [("type", .string "date"), ("value", .ofInt 5)])]

/-- What is read from the letter. -/
def letterValue : Value :=
  .record
    [("a", .list [.date ⟨1577934245, 0⟩]),
      ("b", .record [("type", .str "date"), ("value", .int 5)])]

/-- The letter is read, written with another spelling of the date, and read again. -/
theorem read_write_letter :
  read letter.compact = .ok letterValue ∧ letterValue.Every IsFinite
    ∧ ∃ stored, write letterValue = .ok stored ∧ read stored = .ok letterValue
  := by
  have hread : read letter.compact = .ok letterValue := by
    have hsorted : letter.Sorted := by
      refine ⟨Fields.ascending_cons_cons (by decide) (Fields.ascending_singleton _), ?_⟩
      exact ⟨⟨sorted_envelope _ _, trivial⟩,
        ⟨Codec.ascending_envelope _ _, trivial, trivial, trivial⟩, trivial⟩
    exact read_compact hsorted (by decide) (by decide)
  have hfinite : letterValue.Every IsFinite := by
    simp [letterValue, Value.Every, Value.subvalues, Value.subvaluesOfFields,
      Value.subvaluesOfList, IsFinite]
  obtain ⟨stored, hwrite, hback⟩ := read_write_stored hread hfinite
  exact ⟨hread, hfinite, stored, hwrite, hback.mpr (by decide)⟩

/-- A text in which the reserved name does not come first is read as a record, which is
written to a text in which it does, and that text is refused. -/
theorem read_write_storedReserved :
  read reservedLast.compact = .ok reservedRecord ∧ reservedRecord.Every IsFinite
    ∧ ∃ stored, write reservedRecord = .ok stored ∧ read stored = .error .invalidJson
  := by
  refine ⟨?_, ?_, _, rfl, ?_⟩
  · rw [read, Codec.parseJson, Json.parse?, RawJson.parse?_compact]
    rfl
  · simp [reservedRecord, Value.Every, Value.subvalues, Value.subvaluesOfFields, IsFinite]
  · rw [read, Codec.parseJson, Json.parse?, RawJson.parse?_compact]
    rfl

end LiveExpr.Queryable
