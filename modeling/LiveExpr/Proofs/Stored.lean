import LiveExpr.Codec.Queryable
import LiveExpr.Proofs.RoundTrip

/-!
# Stored records

What is written to an indexed store, and that it is read back.  A value that may be stored
is written, but a value that is written may be stored only if no record in it looks like
an envelope: writing does not look for such records.  A record of values that may be
stored reads back unchanged, whatever its own fields are called, unless a record begins
with the reserved name.  Main statements: `fieldsQueryable_iff` and `read_write_record`.
-/

namespace LiveExpr

namespace Value

mutual

/-- Whether all dates of the data are whole seconds. -/
def hasWholeSeconds : Value → Bool
  | .date moment => moment.nanos == 0
  | .list items => itemsHaveWholeSeconds items
  | .record fields => fieldsHaveWholeSeconds fields
  | .just value | .ok value | .error value | .errorRail value => hasWholeSeconds value
  | .response _ _ body => hasWholeSeconds body
  | _ => true

/-- Whether all dates of the items are whole seconds. -/
def itemsHaveWholeSeconds : List Value → Bool
  | [] => true
  | item :: rest => hasWholeSeconds item && itemsHaveWholeSeconds rest

/-- Whether all dates of the fields are whole seconds. -/
def fieldsHaveWholeSeconds : List (String × Value) → Bool
  | [] => true
  | (_, value) :: rest => hasWholeSeconds value && fieldsHaveWholeSeconds rest

end

end Value

namespace Queryable

open Codec (bind_eq_ok map_eq_ok)
open Value (IsProper ItemsAreProper FieldsAreProper hasWholeSeconds itemsHaveWholeSeconds
  fieldsHaveWholeSeconds reservedPair)

/-! ### What is written -/

mutual

/-- Whether a value is or holds a record that looks like an envelope. -/
def holdsEnvelope : Value → Bool
  | .list items => itemsHoldEnvelope items
  | .record fields => looksLikeEnvelope fields || fieldsHoldEnvelope fields
  | _ => false

/-- Whether one of the items is or holds a record that looks like an envelope. -/
def itemsHoldEnvelope : List Value → Bool
  | [] => false
  | item :: rest => holdsEnvelope item || itemsHoldEnvelope rest

/-- Whether the value of a field is or holds a record that looks like an envelope. -/
def fieldsHoldEnvelope : List (String × Value) → Bool
  | [] => false
  | (_, value) :: rest => holdsEnvelope value || fieldsHoldEnvelope rest

end

theorem isOk_iff {ε α : Type} {x : Except ε α} :
  x.isOk = true ↔ ∃ a, x = .ok a
  := by
  cases x with
  | error e => exact iff_of_false nofun nofun
  | ok a => exact iff_of_true rfl ⟨a, rfl⟩

theorem isOk_map {ε α β : Type} (f : α → β) (x : Except ε α) :
  (x.map f).isOk = x.isOk
  := by
  cases x <;> rfl

/-- Two parts are written together if each of them is. -/
theorem isOk_bind_bind {ε α β γ : Type} (x : Except ε α) (y : Except ε β) (f : α → β → γ) :
  (do let a ← x; let b ← y; Except.ok (f a b)).isOk = (x.isOk && y.isOk)
  := by
  cases x with
  | error e => rfl
  | ok a => cases y <;> rfl

mutual

/-- A value may be stored if it is written and holds no record that looks like an
envelope. -/
theorem isQueryable_eq : ∀ value : Value,
    isQueryable value = ((toJson value).isOk && !holdsEnvelope value)
  | .list items => by
      rw [isQueryable, toJson, isOk_map, holdsEnvelope, itemsQueryable_eq items]
  | .record fields => by
      rw [isQueryable, toJson, isOk_map, holdsEnvelope, fieldsQueryable_eq fields, Bool.not_or,
        Bool.and_left_comm]
  | .float x => by
      rw [isQueryable, toJson, Codec.finiteNumeral?]
      cases x.isFinite <;> rfl
  | .int _ | .bool _ | .null | .char _ | .str _ | .date _ | .password _ | .uuid _ | .bytes _
  | .db _ | .just _ | .nothing | .ok _ | .error _ | .redirect _ | .response _ _ _ | .named _
  | .lambda _ _ _ | .incomplete _ | .failure _ _ | .errorRail _ => rfl

/-- Items are accepted if they can be written and hold no record that looks like an
envelope. -/
theorem itemsQueryable_eq : ∀ items : List Value,
    itemsQueryable items = ((itemsToJson items).isOk && !itemsHoldEnvelope items)
  | [] => rfl
  | item :: rest => by
      rw [itemsQueryable, itemsToJson, isOk_bind_bind, itemsHoldEnvelope, isQueryable_eq item,
        itemsQueryable_eq rest, Bool.not_or]
      ac_rfl

/-- Fields are accepted if they can be written and hold no record that looks like an
envelope. -/
theorem fieldsQueryable_eq : ∀ fields : List (String × Value),
    fieldsQueryable fields = ((fieldsToJson fields).isOk && !fieldsHoldEnvelope fields)
  | [] => rfl
  | (name, value) :: rest => by
      rw [fieldsQueryable, fieldsToJson, isOk_bind_bind, fieldsHoldEnvelope,
        isQueryable_eq value, fieldsQueryable_eq rest, Bool.not_or]
      ac_rfl

end

/-- The values of a record may be stored if and only if the record is written and none of
them is or holds a record that looks like an envelope. -/
theorem fieldsQueryable_iff (fields : List (String × Value)) :
  fieldsQueryable fields = true
    ↔ (∃ text, write (.record fields) = .ok text) ∧ fieldsHoldEnvelope fields = false
  := by
  rw [fieldsQueryable_eq, Bool.and_eq_true, Bool.not_eq_true', ← isOk_iff, write, isOk_map]

/-- The text of an object is read as the record of its members, whatever they are called:
at the top level no object is an envelope. -/
theorem read_compact {members : List (String × Json)} (hsorted : (Json.object members).Sorted)
    (hdepth : (Json.object members).nesting ≤ Json.depthLimit)
    (hname : (Json.object members).isUnreserved = true) :
  read (Json.object members).compact = (membersOfJson members).map .record
  := by
  rw [read, Codec.parseJson_compact hsorted hdepth hname]
  rfl

theorem sorted_envelope (tag text : String) :
  (envelope tag text).Sorted
  := ⟨Codec.ascending_envelope _ _, trivial, trivial, trivial⟩

/-- A record in which a record of two texts looks like the envelope of a date. -/
def imitation : List (String × Value) :=
  [("a", .record [("type", .str "date"), ("value", .str "2020-01-02T03:04:05Z")])]

/-- The record is written although its value may not be stored, and a date is read. -/
theorem write_imitation :
  fieldsQueryable imitation = false
    ∧ ∃ text, write (.record imitation) = .ok text
      ∧ read text = .ok (.record [("a", .date ⟨1577934245, 0⟩)])
  := by
  have hsorted : (Json.object [("a", envelope "date" "2020-01-02T03:04:05Z")]).Sorted :=
    ⟨Fields.ascending_singleton _, sorted_envelope _ _, trivial⟩
  refine ⟨rfl, _, rfl, ?_⟩
  exact read_compact hsorted (by decide) (by decide)

/-! ### What is read of reserved names -/

/-- An object that is no envelope is read as a record. -/
theorem ofJson_object {members : List (String × Json)}
    (h : ∀ tag text, members = [("type", .string tag), ("value", .string text)] → tag ∉ tags) :
  ofJson (.object members) = (membersOfJson members).map .record
  := by
  rcases Classical.em
      (∃ tag text, members = [("type", Json.string tag), ("value", Json.string text)])
    with ⟨tag, text, rfl⟩ | hother
  · rw [ofJson, if_neg (h tag text rfl)]
  · rw [ofJson]
    exact fun tag text hmembers => hother ⟨tag, text, hmembers⟩

/-- No envelope holds a record. -/
theorem isUnreserved_of_readEnvelope {tag text : String} {value : Value}
    (h : readEnvelope tag text = .ok value) :
  value.isUnreserved = true
  := by
  unfold readEnvelope at h
  split at h
  · rw [Codec.readDate] at h
    split at h <;> cases h
    rfl
  · obtain ⟨_, rfl⟩ := Codec.readBytes_map h
    rfl
  · rw [Codec.readUuid] at h
    split at h <;> cases h
    rfl
  · cases h

/-- Fields have the names of the members that they are read from. -/
theorem names_of_membersOfJson {members : List (String × Json)}
    {fields : List (String × Value)} (h : membersOfJson members = .ok fields) :
  fields.map Prod.fst = members.map Prod.fst
  := by
  induction members generalizing fields with
  | nil =>
    obtain rfl := Except.ok.inj h
    rfl
  | cons member rest ih =>
    obtain ⟨name, j⟩ := member
    rw [membersOfJson] at h
    obtain ⟨value, -, h⟩ := bind_eq_ok h
    obtain ⟨others, hothers, h⟩ := bind_eq_ok h
    obtain rfl := Except.ok.inj h
    rw [List.map_cons, List.map_cons, ih hothers]

/-- A record begins with the reserved name only if the object that it is read from does. -/
theorem isUnreserved_record {members : List (String × Json)} {fields : List (String × Value)}
    (hfields : membersOfJson members = .ok fields)
    (hparts : Json.membersUnreserved members = true → Value.fieldsAreUnreserved fields = true)
    (hname : (Json.object members).isUnreserved = true) :
  (Value.record fields).isUnreserved = true
  := by
  rw [Json.isUnreserved, Bool.and_eq_true] at hname
  rw [Value.isUnreserved, Json.startsReserved_congr (names_of_membersOfJson hfields), hname.1,
    hparts hname.2]
  rfl

mutual

/-- What is read of JSON in which no object begins with the reserved name has no record
that does. -/
theorem isUnreserved_of_ofJson : ∀ (j : Json) {value : Value}, ofJson j = .ok value →
    j.isUnreserved = true → value.isUnreserved = true
  | .null, _, h, _ | .bool _, _, h, _ | .string _, _, h, _ => by
      rw [ofJson] at h
      obtain rfl := Except.ok.inj h
      rfl
  | .number _, _, h, _ => by
      rw [ofJson, Codec.ofNumeral] at h
      obtain rfl := Except.ok.inj h
      split <;> rfl
  | .array items, _, h, hname => by
      rw [ofJson] at h
      obtain ⟨values, hvalues, rfl⟩ := map_eq_ok h
      exact Value.isUnreserved_ofItems (itemsAreUnreserved_of_itemsOfJson items hvalues hname)
  | .object members, _, h, hname => by
      rcases Classical.em (∃ tag ∈ tags, ∃ text,
          members = [("type", Json.string tag), ("value", Json.string text)])
        with ⟨tag, htag, text, rfl⟩ | hother
      · rw [ofJson, if_pos htag] at h
        exact isUnreserved_of_readEnvelope h
      · rw [ofJson_object fun tag text hmembers htag => hother ⟨tag, htag, text, hmembers⟩] at h
        obtain ⟨fields, hfields, rfl⟩ := map_eq_ok h
        exact isUnreserved_record hfields (fieldsAreUnreserved_of_membersOfJson members hfields)
          hname

/-- Items that are read from data without reserved keys hold none. -/
theorem itemsAreUnreserved_of_itemsOfJson : ∀ (items : List Json) {values : List Value},
    itemsOfJson items = .ok values → Json.itemsUnreserved items = true →
      Value.itemsAreUnreserved values = true
  | [], _, h, _ => by
      obtain rfl := Except.ok.inj h
      rfl
  | item :: rest, _, h, hname => by
      rw [itemsOfJson] at h
      obtain ⟨value, hvalue, h⟩ := bind_eq_ok h
      obtain ⟨values, hvalues, h⟩ := bind_eq_ok h
      obtain rfl := Except.ok.inj h
      rw [Json.itemsUnreserved, Bool.and_eq_true] at hname
      rw [Value.itemsAreUnreserved, isUnreserved_of_ofJson item hvalue hname.1,
        itemsAreUnreserved_of_itemsOfJson rest hvalues hname.2]
      rfl

/-- Fields that are read from data without reserved keys hold none. -/
theorem fieldsAreUnreserved_of_membersOfJson : ∀ (members : List (String × Json))
    {fields : List (String × Value)}, membersOfJson members = .ok fields →
      Json.membersUnreserved members = true → Value.fieldsAreUnreserved fields = true
  | [], _, h, _ => by
      obtain rfl := Except.ok.inj h
      rfl
  | (_, member) :: rest, _, h, hname => by
      rw [membersOfJson] at h
      obtain ⟨value, hvalue, h⟩ := bind_eq_ok h
      obtain ⟨fields, hfields, h⟩ := bind_eq_ok h
      obtain rfl := Except.ok.inj h
      rw [Json.membersUnreserved, Bool.and_eq_true] at hname
      rw [Value.fieldsAreUnreserved, isUnreserved_of_ofJson member hvalue hname.1,
        fieldsAreUnreserved_of_membersOfJson rest hfields hname.2]
      rfl

end

/-- No record that is read from the text of an object begins with the reserved name. -/
theorem isUnreserved_of_read_compact {j : Json} {value : Value} (hsorted : j.Sorted)
    (h : read j.compact = .ok value) :
  value.isUnreserved = true
  := by
  obtain ⟨back, hparse, h⟩ := bind_eq_ok h
  have hname := Json.isUnreserved_of_parse?_compact hsorted (Codec.parse?_of_parseJson hparse)
  cases back with
  | object members =>
    obtain ⟨fields, hfields, rfl⟩ := map_eq_ok h
    exact isUnreserved_record hfields (fieldsAreUnreserved_of_membersOfJson members hfields) hname
  | _ => cases h

/-! ### What is read back -/

attribute [local simp] ofJson

/-- Whether a value is written as a JSON value that is read as the value. -/
structure IsStoredAs (value : Value) (j : Json) : Prop where
  toJson_eq : toJson value = .ok j
  ofJson_eq : ofJson j = .ok value
  sorted : j.Sorted

/-- Only a string is stored as a string. -/
theorem IsStoredAs.eq_str {value : Value} {text : String} (h : IsStoredAs value (.string text)) :
  value = .str text
  := by
  have hvalue := h.ofJson_eq
  rw [ofJson] at hvalue
  obtain rfl := Except.ok.inj hvalue
  exact congrArg Value.str (Json.string.inj (Except.ok.inj h.toJson_eq))

/-! Values without parts. -/

theorem isStoredAs_int (n : Int) :
  IsStoredAs (.int n) (.ofInt n)
  := by
  refine ⟨rfl, ?_, trivial⟩
  simp [Json.ofInt, Codec.ofNumeral_ofInt]

/-- A finite float is stored as its digits. -/
theorem isStoredAs_float {x : Binary64} (h : x.isFinite = true) :
  IsStoredAs (.float x) (.number (NumberLayout.json.numeral x))
  := by
  refine ⟨?_, ?_, trivial⟩
  · rw [toJson, Codec.finiteNumeral?, if_pos h]
  · simp [Codec.ofNumeral_numeral h]

/-- A text in normal form is stored as itself. -/
theorem isStoredAs_str {text : String} (h : (Value.str text).IsProper) :
  IsStoredAs (.str text) (.string text)
  := by
  have hform : Text.nfc text = text := h
  refine ⟨rfl, ?_, trivial⟩
  simp [Value.ofText, hform]

/-- A value is stored in an envelope if it is read from its text. -/
theorem isStoredAs_envelope {value : Value} {tag text : String} (htag : tag ∈ tags)
    (hwrite : toJson value = .ok (envelope tag text))
    (hread : readEnvelope tag text = .ok value) :
  IsStoredAs value (envelope tag text)
  := by
  refine ⟨hwrite, ?_, sorted_envelope tag text⟩
  rw [envelope, ofJson, if_pos htag, hread]

/-- A moment with whole seconds is stored in an envelope. -/
theorem isStoredAs_date {moment : Timestamp} (h : (Value.date moment).IsProper)
    (hnanos : moment.nanos = 0) :
  IsStoredAs (.date moment) (envelope "date" moment.toIso)
  := by
  apply isStoredAs_envelope (by decide) rfl
  have htag (text : String) : readEnvelope "date" text = Codec.readDate "date" text := rfl
  rw [htag, Codec.readDate_toIso "date" h hnanos]

/-- The secret of a password is stored in an envelope. -/
theorem isStoredAs_password (secret : List UInt8) :
  IsStoredAs (.password secret) (envelope "password" (Text.Base64.standard.encode secret))
  := by
  apply isStoredAs_envelope (by decide) rfl
  have htag (text : String) :
      readEnvelope "password" text = (Codec.readBytes "password" text).map .password := rfl
  rw [htag, Codec.readBytes_encode]
  rfl

/-- An identifier is stored in an envelope. -/
theorem isStoredAs_uuid (id : Uuid) :
  IsStoredAs (.uuid id) (envelope "uuid" id.toText)
  := by
  apply isStoredAs_envelope (by decide) rfl
  have htag (text : String) : readEnvelope "uuid" text = Codec.readUuid "uuid" text := rfl
  rw [htag, Codec.readUuid_toText]

/-! Lists. -/

/-- Whether items are stored as the items of an array. -/
def ItemsAreStoredAs (items : List Value) (js : List Json) : Prop :=
  List.Forall₂ IsStoredAs items js

/-- A list is stored as its items if none is on the error rail. -/
theorem isStoredAs_list {items : List Value} {js : List Json} (h : ItemsAreStoredAs items js)
    (hrail : items.find? Value.isErrorRail = none) :
  IsStoredAs (.list items) (.array js)
  := by
  have hitems : itemsToJson items = .ok js ∧ itemsOfJson js = .ok items
      ∧ Json.ItemsSorted js := by
    clear hrail
    induction h with
    | nil => exact ⟨rfl, rfl, trivial⟩
    | cons hitem _ ih =>
      obtain ⟨hwrite, hread, hsorted⟩ := ih
      rw [itemsToJson, itemsOfJson, hitem.toJson_eq, hitem.ofJson_eq, hwrite, hread]
      exact ⟨rfl, rfl, hitem.sorted, hsorted⟩
  obtain ⟨hwrite, hread, hsorted⟩ := hitems
  refine ⟨?_, ?_, hsorted⟩
  · rw [toJson, hwrite]
    rfl
  · have hlist : Value.ofItems items = .list items := by rw [Value.ofItems, hrail]
    rw [ofJson, hread, ← hlist]
    rfl

/-! Records. -/

/-- Whether fields are stored as the members of an object. -/
def AreStoredAs (fields : List (String × Value)) (members : List (String × Json)) : Prop :=
  List.Forall₂ (fun field member => field.1 = member.1 ∧ IsStoredAs field.2 member.2) fields
    members

variable {fields : List (String × Value)} {members : List (String × Json)}

/-- Fields are written as they are stored. -/
theorem AreStoredAs.toJson_eq (h : AreStoredAs fields members) :
  fieldsToJson fields = .ok members
  := by
  induction h with
  | nil => rfl
  | cons hfield _ ih =>
    obtain ⟨hname, hvalue⟩ := hfield
    rw [fieldsToJson, hvalue.toJson_eq, ih, hname]
    rfl

/-- Fields are read back from what they are stored as. -/
theorem AreStoredAs.ofJson_eq (h : AreStoredAs fields members) :
  membersOfJson members = .ok fields
  := by
  induction h with
  | nil => rfl
  | cons hfield _ ih =>
    obtain ⟨hname, hvalue⟩ := hfield
    rw [membersOfJson, hvalue.ofJson_eq, ih, ← hname]
    rfl

theorem AreStoredAs.sorted (h : AreStoredAs fields members) :
  Json.MembersSorted members
  := by
  induction h with
  | nil => trivial
  | cons hfield _ ih => exact ⟨hfield.2.sorted, ih⟩

/-- The keys of stored fields ascend as the names do. -/
theorem AreStoredAs.ascending (h : AreStoredAs fields members)
    (hascending : Fields.Ascending fields) :
  Fields.Ascending members
  := Fields.ascending_of_forall₂ h hascending

/-- A record is written as the object of the members that its fields are stored as. -/
theorem AreStoredAs.write_eq (h : AreStoredAs fields members) :
  write (.record fields) = .ok (Json.object members).compact
  := by
  rw [write, h.toJson_eq]
  rfl

/-- Within the limit of nesting a record reads back from what it is written as, if and only
if no record in it begins with the reserved name. -/
theorem AreStoredAs.read_iff (h : AreStoredAs fields members)
    (hascending : Fields.Ascending fields)
    (hdepth : (Json.object members).nesting ≤ Json.depthLimit) :
  read (Json.object members).compact = .ok (.record fields)
    ↔ (Value.record fields).isUnreserved = true
  := by
  have hsorted : (Json.object members).Sorted := ⟨h.ascending hascending, h.sorted⟩
  have hj : toJson (.record fields) = .ok (.object members) := by
    rw [toJson, h.toJson_eq]
    rfl
  refine ⟨isUnreserved_of_read_compact hsorted, fun hname => ?_⟩
  rw [read_compact hsorted hdepth ((isUnreserved_toJson hj).trans hname), h.ofJson_eq]
  rfl

/-- Only the fields of an envelope are stored as an envelope. -/
theorem AreStoredAs.eq_envelope {tag text : String}
    (h : AreStoredAs fields [("type", .string tag), ("value", .string text)]) :
  fields = [("type", .str tag), ("value", .str text)]
  := by
  obtain ⟨⟨name, type⟩, rest, ⟨rfl, htype⟩, hrest, rfl⟩ := List.forall₂_cons_right_iff.mp h
  obtain ⟨⟨name, value⟩, rest, ⟨rfl, hvalue⟩, hnil, rfl⟩ :=
    List.forall₂_cons_right_iff.mp hrest
  obtain rfl := List.forall₂_nil_right_iff.mp hnil
  obtain rfl := htype.eq_str
  obtain rfl := hvalue.eq_str
  rfl

/-- A record inside another is read as a record if its fields are not those of an
envelope. -/
theorem isStoredAs_record (h : AreStoredAs fields members)
    (hascending : Fields.Ascending fields)
    (hother : ∀ tag ∈ tags, ∀ text, fields ≠ [("type", .str tag), ("value", .str text)]) :
  IsStoredAs (.record fields) (.object members)
  := by
  refine ⟨?_, ?_, h.ascending hascending, h.sorted⟩
  · rw [toJson, h.toJson_eq]
    rfl
  · rw [ofJson_object, h.ofJson_eq]
    · rfl
    · rintro tag text rfl htag
      exact hother tag htag text h.eq_envelope

/-- What does not look like an envelope is none. -/
theorem ne_envelope (hlooks : looksLikeEnvelope fields = false) {tag : String}
    (htag : tag ∈ tags) (text : String) :
  fields ≠ [("type", .str tag), ("value", .str text)]
  := by
  rintro rfl
  exact Bool.eq_false_iff.mp hlooks (decide_eq_true htag)

/-! ### The round trip -/

theorem find?_of_itemsQueryable {items : List Value} (h : itemsQueryable items = true) :
  items.find? Value.isErrorRail = none
  := by
  induction items with
  | nil => rfl
  | cons item rest ih =>
    rw [itemsQueryable, Bool.and_eq_true] at h
    obtain ⟨hitem, hrest⟩ := h
    have hrail : ¬item.isErrorRail = true := by
      cases item with
      | errorRail value => cases hitem
      | _ => exact Bool.false_ne_true
    rw [List.find?_cons_of_neg hrail, ih hrest]

mutual

/-- A value that may be stored is written as a JSON value that is read as the value. -/
theorem exists_isStoredAs : ∀ value : Value, value.IsProper → isQueryable value = true →
    hasWholeSeconds value = true → ∃ j, IsStoredAs value j
  | .int n, _, _, _ => ⟨_, isStoredAs_int n⟩
  | .float _, _, hstorable, _ => ⟨_, isStoredAs_float hstorable⟩
  | .bool _, _, _, _ => ⟨_, rfl, by simp, trivial⟩
  | .null, _, _, _ => ⟨_, rfl, by simp, trivial⟩
  | .str _, h, _, _ => ⟨_, isStoredAs_str h⟩
  | .date _, h, _, hseconds => ⟨_, isStoredAs_date h (eq_of_beq hseconds)⟩
  | .password secret, _, _, _ => ⟨_, isStoredAs_password secret⟩
  | .uuid id, _, _, _ => ⟨_, isStoredAs_uuid id⟩
  | .list items, h, hstorable, hseconds => by
      obtain ⟨js, hjs⟩ := exists_itemsAreStoredAs items h hstorable hseconds
      exact ⟨_, isStoredAs_list hjs (find?_of_itemsQueryable hstorable)⟩
  | .record fields, h, hstorable, hseconds => by
      rw [isQueryable, Bool.and_eq_true, Bool.not_eq_true'] at hstorable
      obtain ⟨members, hmembers⟩ := exists_areStoredAs fields h.2 hstorable.2 hseconds
      exact ⟨_, isStoredAs_record hmembers h.1 fun _ htag text =>
        ne_envelope hstorable.1 htag text⟩
  | .char _, _, hstorable, _ | .bytes _, _, hstorable, _ | .db _, _, hstorable, _
  | .just _, _, hstorable, _ | .nothing, _, hstorable, _ | .ok _, _, hstorable, _
  | .error _, _, hstorable, _ | .redirect _, _, hstorable, _ | .response _ _ _, _, hstorable, _
  | .named _, _, hstorable, _ | .lambda _ _ _, _, hstorable, _ | .incomplete _, _, hstorable, _
  | .failure _ _, _, hstorable, _ | .errorRail _, _, hstorable, _ => nomatch hstorable

/-- Proper items that are accepted can be stored. -/
theorem exists_itemsAreStoredAs : ∀ items : List Value, ItemsAreProper items →
    itemsQueryable items = true → itemsHaveWholeSeconds items = true →
      ∃ js, ItemsAreStoredAs items js
  | [], _, _, _ => ⟨[], .nil⟩
  | item :: rest, h, hstorable, hseconds => by
      rw [itemsQueryable, Bool.and_eq_true] at hstorable
      rw [itemsHaveWholeSeconds, Bool.and_eq_true] at hseconds
      obtain ⟨j, hj⟩ := exists_isStoredAs item h.1 hstorable.1 hseconds.1
      obtain ⟨js, hjs⟩ := exists_itemsAreStoredAs rest h.2 hstorable.2 hseconds.2
      exact ⟨j :: js, .cons hj hjs⟩

/-- Proper fields that are accepted can be stored. -/
theorem exists_areStoredAs : ∀ fields : List (String × Value), FieldsAreProper fields →
    fieldsQueryable fields = true → fieldsHaveWholeSeconds fields = true →
      ∃ members, AreStoredAs fields members
  | [], _, _, _ => ⟨[], .nil⟩
  | (name, value) :: rest, h, hstorable, hseconds => by
      rw [fieldsQueryable, Bool.and_eq_true] at hstorable
      rw [fieldsHaveWholeSeconds, Bool.and_eq_true] at hseconds
      obtain ⟨j, hj⟩ := exists_isStoredAs value h.1 hstorable.1 hseconds.1
      obtain ⟨members, hmembers⟩ := exists_areStoredAs rest h.2 hstorable.2 hseconds.2
      exact ⟨(name, j) :: members, .cons ⟨rfl, hj⟩ hmembers⟩

end

/-- A record of values that may be stored is written, and if what is written is not nested
too deep, the record reads back from it if and only if no record in it begins with the
reserved name. -/
theorem read_write_record {fields : List (String × Value)} (h : (Value.record fields).IsProper)
    (hstorable : fieldsQueryable fields = true)
    (hseconds : fieldsHaveWholeSeconds fields = true) :
  ∃ j, toJson (.record fields) = .ok j ∧ write (.record fields) = .ok j.compact
    ∧ (j.nesting ≤ Json.depthLimit →
      (read j.compact = .ok (.record fields) ↔ (Value.record fields).isUnreserved = true))
  := by
  obtain ⟨members, hmembers⟩ := exists_areStoredAs fields h.2 hstorable hseconds
  refine ⟨.object members, ?_, hmembers.write_eq, hmembers.read_iff h.1⟩
  rw [toJson, hmembers.toJson_eq]
  rfl

/-- A record that is called like the envelope of a UUID, with a record in a list that is
called like another envelope. -/
def song : List (String × Value) :=
  [("type", .str "uuid"),
    ("value", .list [.date ⟨1577934245, 0⟩, .password [1, 2],
      .record [("type", .str "song"), ("value", .str "x")]])]

/-- The record reads back unchanged. -/
theorem read_write_song :
  (Value.record song).IsProper ∧ fieldsQueryable song = true
    ∧ fieldsHaveWholeSeconds song = true
    ∧ ∃ text, write (.record song) = .ok text ∧ read text = .ok (.record song)
  := by
  have hproper : (Value.record song).IsProper := by
    refine ⟨Codec.ascending_envelope _ _, rfl, ⟨rfl, trivial, ?_, trivial⟩, trivial⟩
    exact ⟨Codec.ascending_envelope _ _, rfl, rfl, trivial⟩
  obtain ⟨j, hj, hwrite, hread⟩ := read_write_record hproper rfl rfl
  cases hj
  exact ⟨hproper, rfl, rfl, _, hwrite, (hread (by decide)).mpr (by decide)⟩

/-- The record of the reserved name may be stored, and the text that is written of it states
a number. -/
theorem read_write_reservedPair :
  (Value.record reservedPair).IsProper ∧ fieldsQueryable reservedPair = true
    ∧ fieldsHaveWholeSeconds reservedPair = true
    ∧ ∃ j : Json, write (.record reservedPair) = .ok j.compact ∧ j.nesting ≤ Json.depthLimit
      ∧ read j.compact = .error (.notAnObject "number")
  := by
  refine ⟨⟨Fields.ascending_singleton _, rfl, trivial⟩, rfl, rfl, _, rfl, by decide, ?_⟩
  rw [read, Codec.parseJson, Json.parse?, RawJson.parse?_compact]
  rfl

end Queryable

end LiveExpr
