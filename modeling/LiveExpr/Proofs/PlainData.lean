import LiveExpr.Codec.MachineJson
import LiveExpr.Proofs.Fragments
import LiveExpr.Proofs.Parts
import LiveExpr.Proofs.Reserved

/-!
# Machine JSON as plain data

What machine JSON says of a value: the plain data that the value stands for, without the
wrappers around it.  The indented text of every value is read as that, and plain data is
read as itself, records that look like envelopes included, unless a record begins with the
name that is reserved for numbers.  Main statement: `read_write_plain`.
-/

namespace LiveExpr.MachineJson

/-! ### Plain data -/

/-- The record of an error. -/
def errorRecord (value : Value) : Value :=
  .record [("Error", value)]

mutual

/-- The plain data that a value stands for. -/
def plain : Value → Value
  | .int n => .int n
  | .float x => if x.isFinite then .float x else .null
  | .bool b => .bool b
  | .null | .named _ | .lambda _ _ _ | .incomplete _ | .nothing | .redirect _ => .null
  | .str text | .char text | .db text => .ofText text
  | .date moment => .ofText moment.toIso
  | .uuid id => .ofText id.toText
  | .bytes content => .ofText (Text.Base64.standard.encode content)
  | .list items => .list (itemsPlain items)
  | .record fields => .record (fieldsPlain fields)
  | .just value | .ok value | .errorRail value | .response _ _ value => plain value
  | .failure _ message => errorRecord (.ofText message)
  | .error value => errorRecord (plain value)
  | .password _ => errorRecord (.str "Password is redacted")

/-- The plain data that the items of a list stand for. -/
def itemsPlain : List Value → List Value
  | [] => []
  | item :: rest => plain item :: itemsPlain rest

/-- The plain data that the fields of a record stand for. -/
def fieldsPlain : List (String × Value) → List (String × Value)
  | [] => []
  | (name, value) :: rest => (name, plain value) :: fieldsPlain rest

end

/-- Whether a value is plain data if its parts are. -/
def IsPlain : Value → Prop
  | .int _ | .bool _ | .null | .list _ | .record _ => True
  | .float x => x.isFinite = true
  | .str text => Text.nfc text = text
  | _ => False

/-- Whether the names of a record ascend. -/
def IsOrdered : Value → Prop
  | .record fields => Fields.Ascending fields
  | _ => True

mutual

/-- Plain data stands for itself. -/
theorem plain_eq_self : ∀ value : Value, value.Every IsPlain → plain value = value
  | .int _, _ | .bool _, _ | .null, _ => by rw [plain]
  | .float x, h => by
      have hfinite : x.isFinite = true := h.self
      rw [plain, if_pos hfinite]
  | .str text, h => by
      have hform : Text.nfc text = text := h.self
      rw [plain, Value.ofText, hform]
  | .list items, h => by
      rw [plain, itemsPlain_eq_self items (Value.every_iff.mp h).2]
  | .record fields, h => by
      have hparts := (Value.every_iff.mp h).2
      rw [plain, fieldsPlain_eq_self fields fun field hfield =>
        hparts _ (List.mem_map_of_mem hfield)]
  | .char _, h | .date _, h | .password _, h | .uuid _, h | .bytes _, h | .db _, h | .just _, h
  | .nothing, h | .ok _, h | .error _, h | .redirect _, h | .response _ _ _, h | .named _, h
  | .lambda _ _ _, h | .incomplete _, h | .failure _ _, h | .errorRail _, h => h.self.elim

theorem itemsPlain_eq_self : ∀ items : List Value, (∀ item ∈ items, item.Every IsPlain) →
    itemsPlain items = items
  | [], _ => rfl
  | item :: rest, h => by
      obtain ⟨hitem, hrest⟩ := List.forall_mem_cons.mp h
      rw [itemsPlain, plain_eq_self item hitem, itemsPlain_eq_self rest hrest]

theorem fieldsPlain_eq_self : ∀ fields : List (String × Value),
    (∀ field ∈ fields, field.2.Every IsPlain) → fieldsPlain fields = fields
  | [], _ => rfl
  | (name, value) :: rest, h => by
      obtain ⟨hvalue, hrest⟩ := List.forall_mem_cons.mp h
      rw [fieldsPlain, plain_eq_self value hvalue, fieldsPlain_eq_self rest hrest]

end

/-- Nothing in plain data stands on the error rail. -/
theorem isErrorRail_plain : ∀ value : Value, (plain value).isErrorRail = false
  | .just value | .ok value | .errorRail value | .response _ _ value => by
      rw [plain]
      exact isErrorRail_plain value
  | .float _ => by
      rw [plain]
      split <;> rfl
  | .int _ | .bool _ | .null | .char _ | .str _ | .list _ | .record _ | .date _ | .password _
  | .uuid _ | .bytes _ | .db _ | .nothing | .error _ | .redirect _ | .named _ | .lambda _ _ _
  | .incomplete _ | .failure _ _ => by
      rw [plain]
      rfl

/-- No item on the error rail stands for a list of plain data. -/
theorem ofItems_itemsPlain (items : List Value) :
  Value.ofItems (itemsPlain items) = .list (itemsPlain items)
  := by
  have hrail : (itemsPlain items).find? Value.isErrorRail = none := by
    induction items with
    | nil => rfl
    | cons item rest ih =>
      rw [itemsPlain, List.find?_cons_of_neg (by rw [isErrorRail_plain]; exact nofun), ih]
  rw [Value.ofItems, hrail]

/-! ### What is written -/

theorem fieldsToJson_eq_map (fields : List (String × Value)) :
  fieldsToJson fields = fields.map fun field => (field.1, toJson field.2)
  := by
  induction fields with
  | nil => rfl
  | cons field rest ih => rw [fieldsToJson, ih, List.map_cons]

theorem sorted_errorObject {j : Json} (h : j.Sorted) :
  (errorObject j).Sorted
  := ⟨Fields.ascending_singleton _, h, trivial⟩

mutual

/-- What is written has the members of its objects in order. -/
theorem sorted_toJson : ∀ value : Value, value.Every IsOrdered → (toJson value).Sorted
  | .list items, h => sorted_itemsToJson items (Value.every_iff.mp h).2
  | .record fields, h => by
      obtain ⟨hascending, hparts⟩ := Value.every_iff.mp h
      rw [toJson]
      refine ⟨?_, sorted_fieldsToJson fields fun field hfield =>
        hparts _ (List.mem_map_of_mem hfield)⟩
      rw [fieldsToJson_eq_map]
      exact Fields.ascending_map hascending toJson
  | .just value, h | .ok value, h | .errorRail value, h | .response _ _ value, h => by
      rw [toJson]
      exact sorted_toJson value ((Value.every_iff.mp h).2 value List.mem_cons_self)
  | .error value, h =>
    sorted_errorObject (sorted_toJson value ((Value.every_iff.mp h).2 value List.mem_cons_self))
  | .password _, _ | .failure _ _, _ => sorted_errorObject trivial
  | .float x, _ => by
      rw [toJson, Codec.finiteNumeral?]
      split <;> trivial
  | .int _, _ | .bool _, _ | .null, _ | .char _, _ | .str _, _ | .date _, _ | .uuid _, _
  | .bytes _, _ | .db _, _ | .nothing, _ | .redirect _, _ | .named _, _ | .lambda _ _ _, _
  | .incomplete _, _ => trivial

theorem sorted_itemsToJson : ∀ items : List Value, (∀ item ∈ items, item.Every IsOrdered) →
    Json.ItemsSorted (itemsToJson items)
  | [], _ => trivial
  | item :: rest, h =>
    have h := List.forall_mem_cons.mp h
    ⟨sorted_toJson item h.1, sorted_itemsToJson rest h.2⟩

theorem sorted_fieldsToJson : ∀ fields : List (String × Value),
    (∀ field ∈ fields, field.2.Every IsOrdered) → Json.MembersSorted (fieldsToJson fields)
  | [], _ => trivial
  | (_, value) :: rest, h =>
    have h := List.forall_mem_cons.mp h
    ⟨sorted_toJson value h.1, sorted_fieldsToJson rest h.2⟩

end

/-! ### What is read back -/

theorem ofJson_errorObject (j : Json) :
  ofJson (errorObject j) = errorRecord (ofJson j)
  := by
  rw [errorObject, ofJson, membersOfJson, membersOfJson, errorRecord]

mutual

/-- What was written is read as the plain data that the value stands for. -/
theorem ofJson_toJson : ∀ value : Value, ofJson (toJson value) = plain value
  | .int n => by rw [toJson, Json.ofInt, ofJson, Codec.ofNumeral_ofInt, plain]
  | .float x => by
      rw [toJson, Codec.finiteNumeral?, plain]
      split
      · next hfinite => rw [Option.getD_some, ofJson, Codec.ofNumeral_numeral hfinite]
      · rw [Option.getD_none, ofJson]
  | .bool _ | .null | .named _ | .lambda _ _ _ | .incomplete _ | .nothing | .redirect _
  | .str _ | .char _ | .db _ | .date _ | .uuid _ | .bytes _ => by rw [toJson, ofJson, plain]
  | .list items => by
      rw [toJson, ofJson, itemsOfJson_itemsToJson items, ofItems_itemsPlain, plain]
  | .record fields => by rw [toJson, ofJson, membersOfJson_fieldsToJson fields, plain]
  | .just value | .ok value | .errorRail value | .response _ _ value => by
      rw [toJson, plain, ofJson_toJson value]
  | .failure _ _ => by rw [toJson, ofJson_errorObject, ofJson, plain]
  | .error value => by rw [toJson, ofJson_errorObject, ofJson_toJson value, plain]
  | .password _ => by
      rw [toJson, ofJson_errorObject, ofJson, plain]
      rfl

theorem itemsOfJson_itemsToJson : ∀ items : List Value,
    itemsOfJson (itemsToJson items) = itemsPlain items
  | [] => rfl
  | item :: rest => by
      rw [itemsToJson, itemsOfJson, ofJson_toJson item, itemsOfJson_itemsToJson rest, itemsPlain]

theorem membersOfJson_fieldsToJson : ∀ fields : List (String × Value),
    membersOfJson (fieldsToJson fields) = fieldsPlain fields
  | [] => rfl
  | (name, value) :: rest => by
      rw [fieldsToJson, membersOfJson, ofJson_toJson value, membersOfJson_fieldsToJson rest,
        fieldsPlain]

end

/-! ### Reserved names -/

mutual

/-- Nothing is read as a value on the error rail. -/
theorem isErrorRail_ofJson : ∀ j : Json, (ofJson j).isErrorRail = false
  | .array items => by
      rw [ofJson, Value.ofItems, find?_itemsOfJson items]
      rfl
  | .number n => by
      rw [ofJson, Codec.ofNumeral]
      split <;> rfl
  | .null | .bool _ | .string _ | .object _ => by
      rw [ofJson]
      rfl

theorem find?_itemsOfJson : ∀ items : List Json,
    (itemsOfJson items).find? Value.isErrorRail = none
  | [] => rfl
  | item :: rest => by
      rw [itemsOfJson, List.find?_cons_of_neg (Bool.eq_false_iff.mp (isErrorRail_ofJson item)),
        find?_itemsOfJson rest]

end

theorem names_membersOfJson (members : List (String × Json)) :
  (membersOfJson members).map Prod.fst = members.map Prod.fst
  := by
  induction members with
  | nil => rfl
  | cons member rest ih => rw [membersOfJson, List.map_cons, List.map_cons, ih]

mutual

/-- A record that is read begins with the reserved name where the object does. -/
theorem isUnreserved_ofJson : ∀ j : Json, (ofJson j).isUnreserved = j.isUnreserved
  | .array items => by
      rw [ofJson, Value.ofItems, find?_itemsOfJson items]
      exact itemsAreUnreserved_itemsOfJson items
  | .object members => by
      rw [ofJson, Value.isUnreserved, Json.startsReserved_congr (names_membersOfJson members),
        fieldsAreUnreserved_membersOfJson members, Json.isUnreserved]
  | .number n => by
      rw [ofJson, Codec.ofNumeral]
      split <;> rfl
  | .null | .bool _ | .string _ => by
      rw [ofJson]
      rfl

theorem itemsAreUnreserved_itemsOfJson : ∀ items : List Json,
    Value.itemsAreUnreserved (itemsOfJson items) = Json.itemsUnreserved items
  | [] => rfl
  | item :: rest => by
      rw [itemsOfJson, Value.itemsAreUnreserved, isUnreserved_ofJson item,
        itemsAreUnreserved_itemsOfJson rest, Json.itemsUnreserved]

theorem fieldsAreUnreserved_membersOfJson : ∀ members : List (String × Json),
    Value.fieldsAreUnreserved (membersOfJson members) = Json.membersUnreserved members
  | [] => rfl
  | (_, member) :: rest => by
      rw [membersOfJson, Value.fieldsAreUnreserved, isUnreserved_ofJson member,
        fieldsAreUnreserved_membersOfJson rest, Json.membersUnreserved]

end

/-- The plain data that a value stands for has a record that begins with the reserved name
where the value has. -/
theorem isUnreserved_plain (value : Value) :
  (plain value).isUnreserved = value.isUnreserved
  := by
  rw [← ofJson_toJson, isUnreserved_ofJson, isUnreserved_toJson]

/-- No record that is read from the text of a value begins with the reserved name. -/
theorem isUnreserved_of_read_write {value back : Value} (hordered : value.Every IsOrdered)
    (h : read (write value) = .ok back) :
  back.isUnreserved = true
  := by
  obtain ⟨j, hparse, rfl⟩ := Codec.map_eq_ok h
  rw [isUnreserved_ofJson]
  exact Json.isUnreserved_of_parse?_pretty (sorted_toJson value hordered)
    (Codec.parse?_of_parseJson hparse)

/-- The text of a value is read as the plain data that the value stands for, which for plain
data is the value, if and only if no record in it begins with the reserved name. -/
theorem read_write_plain {value : Value} (hordered : value.Every IsOrdered)
    (hdepth : (toJson value).nesting ≤ Json.depthLimit) :
  (read (write value) = .ok (plain value) ↔ value.isUnreserved = true)
    ∧ (value.Every IsPlain → (read (write value) = .ok value ↔ value.isUnreserved = true))
  := by
  have hread : read (write value) = .ok (plain value) ↔ value.isUnreserved = true := by
    refine ⟨fun h => ?_, fun hname => ?_⟩
    · rw [← isUnreserved_plain]
      exact isUnreserved_of_read_write hordered h
    · rw [read, write, Codec.parseJson_pretty (sorted_toJson value hordered) hdepth
        ((isUnreserved_toJson value).trans hname), ← ofJson_toJson value]
      rfl
  refine ⟨hread, fun hplain => ?_⟩
  rw [← hread, plain_eq_self value hplain]

/-- A list in wrappers, with a record that looks like the envelope of a date. -/
def wrapped : Value :=
  .response 200 [] (.just (.list
    [.char "x", .password [1], .error .nothing,
      .record [("type", .str "date"), ("value", .str "2020-01-02T03:04:05Z")]]))

/-- The list is read without its wrappers, and then read as itself. -/
theorem read_write_wrapped :
  wrapped.Every IsOrdered ∧ (toJson wrapped).nesting ≤ Json.depthLimit
    ∧ read (write wrapped) = .ok (plain wrapped)
    ∧ read (write (plain wrapped)) = .ok (plain wrapped)
  := by
  have hplain : plain wrapped = .list
      [.str "x", errorRecord (.str "Password is redacted"), errorRecord .null,
        .record [("type", .str "date"), ("value", .str "2020-01-02T03:04:05Z")]] := rfl
  have hordered : wrapped.Every IsOrdered := by
    simp [wrapped, Value.Every, Value.subvalues, Value.subvaluesOfFields,
      Value.subvaluesOfList, IsOrdered, Codec.ascending_envelope]
  have hdepth : (toJson wrapped).nesting ≤ Json.depthLimit := by decide
  refine ⟨hordered, hdepth, (read_write_plain hordered hdepth).1.mpr (by decide), ?_⟩
  rw [hplain]
  refine ((read_write_plain ?_ (by decide)).2 ?_).mpr (by decide)
  · simp [errorRecord, Value.Every, Value.subvalues, Value.subvaluesOfFields,
      Value.subvaluesOfList, IsOrdered, Fields.ascending_singleton, Codec.ascending_envelope]
  · simp only [errorRecord, Value.Every, Value.subvalues, Value.subvaluesOfFields,
      Value.subvaluesOfList, List.append_nil, List.cons_append, List.nil_append,
      List.forall_mem_cons, IsPlain]
    exact ⟨trivial, rfl, trivial, rfl, trivial, trivial, trivial, rfl, rfl,
      List.forall_mem_nil _⟩

/-- The record of the reserved name is plain data, and its text is read as a number. -/
theorem read_write_plainReserved :
  (Value.record Value.reservedPair).Every IsPlain
    ∧ (Value.record Value.reservedPair).Every IsOrdered
    ∧ (toJson (.record Value.reservedPair)).nesting ≤ Json.depthLimit
    ∧ read (write (.record Value.reservedPair)) = .ok (.int 5)
  := by
  refine ⟨?_, ?_, by decide, ?_⟩
  · simp only [Value.reservedPair, Value.Every, Value.subvalues, Value.subvaluesOfFields,
      List.append_nil, List.forall_mem_cons, IsPlain]
    exact ⟨trivial, rfl, List.forall_mem_nil _⟩
  · simp [Value.reservedPair, Value.Every, Value.subvalues, Value.subvaluesOfFields, IsOrdered,
      Fields.ascending_singleton]
  · rw [read, write, Codec.parseJson, Json.parse?, RawJson.parse?_pretty]
    rfl

end LiveExpr.MachineJson
