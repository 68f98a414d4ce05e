import LiveExpr.Codec.Roundtrip
import LiveExpr.Proofs.Fragments
import LiveExpr.Proofs.Normalization
import LiveExpr.Proofs.Reserved

/-!
# The round trip

What a value in the round-trip representation reads back as: its normal form, which
forgets where fake values come from, takes `Just null` for `Nothing`, and lets a value on
the error rail stand for the list that holds it.  It does so by the grammar of JSON alone,
and by the reader, which reserves a name, if no record begins with that name.  Main
statement: `read_write`.
-/

namespace LiveExpr

namespace Value

open Roundtrip (isCode)

mutual

/-- Whether a value is as its constructors make it: texts are in normal form, a
character is one cluster, names of fields ascend, days are in the calendar, and codes
have 64 bits. -/
def IsProper : Value → Prop
  | .char text => Text.nfc text = text ∧ Text.clusterCount text = 1
  | .str text => Text.nfc text = text
  | .list items => ItemsAreProper items
  | .record fields => Fields.Ascending fields ∧ FieldsAreProper fields
  | .date moment => moment.day.isValid = true
  | .just value | .ok value | .error value | .errorRail value => IsProper value
  | .response code _ body => isCode code = true ∧ IsProper body
  | _ => True

/-- Whether the items of a list are as their constructors make them. -/
def ItemsAreProper : List Value → Prop
  | [] => True
  | item :: rest => IsProper item ∧ ItemsAreProper rest

/-- Whether the values of fields are as their constructors make them. -/
def FieldsAreProper : List (String × Value) → Prop
  | [] => True
  | (_, value) :: rest => IsProper value ∧ FieldsAreProper rest

end

theorem itemsAreProper_iff {items : List Value} :
  ItemsAreProper items ↔ ∀ item ∈ items, item.IsProper
  := by
  induction items with
  | nil => simp [ItemsAreProper]
  | cons item rest ih => simp [ItemsAreProper, ih]

theorem fieldsAreProper_iff {fields : List (String × Value)} :
  FieldsAreProper fields ↔ Fields.All IsProper fields
  := by
  induction fields with
  | nil => simp [FieldsAreProper, Fields.All]
  | cons field rest ih =>
    rw [Fields.All] at ih ⊢
    simp [FieldsAreProper, ih]

/-! The constructors make proper values. -/

/-- A text is put in normal form, so that the value is proper. -/
theorem isProper_ofText (text : String) :
  (ofText text).IsProper
  := Text.nfc_nfc text

/-- A character is put in normal form, so that the value is proper. -/
theorem isProper_ofCharacter {text : String} {value : Value}
    (h : ofCharacter text = .ok value) :
  value.IsProper
  := by
  rw [ofCharacter] at h
  split at h
  · next hcount =>
    obtain rfl := Except.ok.inj h
    exact ⟨Text.nfc_nfc text, hcount⟩
  · cases h

/-- A list of proper items is proper: one on the error rail takes its place. -/
theorem isProper_ofItems {items : List Value} (h : ∀ item ∈ items, item.IsProper) :
  (ofItems items).IsProper
  := by
  rw [ofItems]
  split
  · next item hitem => exact h item (List.mem_of_find?_eq_some hitem)
  · exact itemsAreProper_iff.mpr h

end Value

namespace Roundtrip

open Value (IsProper ItemsAreProper FieldsAreProper)

mutual

/-- What a value reads back as. -/
def normalForm : Value → Value
  | .list items => .ofItems (itemsNormalForm items)
  | .record fields => .record (fieldsNormalForm fields)
  | .just .null => .nothing
  | .just value => .just (normalForm value)
  | .ok value => .ok (normalForm value)
  | .error value => .error (normalForm value)
  | .response code headers body => .response code headers (normalForm body)
  | .incomplete _ => .incomplete .unknown
  | .failure _ message => .failure .unknown message
  | .errorRail value => .errorRail (normalForm value)
  | value => value

/-- What the items of a list read back as. -/
def itemsNormalForm : List Value → List Value
  | [] => []
  | item :: rest => normalForm item :: itemsNormalForm rest

/-- What the fields of a record read back as. -/
def fieldsNormalForm : List (String × Value) → List (String × Value)
  | [] => []
  | (name, value) :: rest => (name, normalForm value) :: fieldsNormalForm rest

end

/-! ### What is written -/

/-- Only null is written as null. -/
theorem toJson_ne_null {value : Value} (h : value ≠ .null) :
  toJson value ≠ .null
  := by
  intro hnull
  cases value with
  | null => exact h rfl
  | float x =>
    rw [toJson, Codec.finiteNumeral?] at hnull
    split at hnull <;> cases hnull
  | _ => rw [toJson] at hnull; cases hnull

/-- Only a string is written as a string. -/
theorem eq_str_of_toJson {value : Value} {text : String} (h : toJson value = .string text) :
  value = .str text
  := by
  cases value with
  | str other => rw [Json.string.inj h]
  | float x =>
    rw [toJson, Codec.finiteNumeral?] at h
    split at h <;> cases h
  | _ => rw [toJson] at h; cases h

/-! Members in order. -/

/-- An envelope has its keys in order. -/
theorem sorted_envelope (tag : String) {value : Json} (h : value.Sorted) :
  (envelope tag value).Sorted
  := ⟨Codec.ascending_envelope _ _, trivial, h, trivial⟩

theorem sorted_resultEnvelope (constructor : String) {value : Json} (h : value.Sorted) :
  (resultEnvelope constructor value).Sorted
  := by
  refine ⟨?_, trivial, trivial, ⟨h, trivial⟩, trivial⟩
  apply Fields.ascending_cons_cons (by decide)
  exact Fields.ascending_cons_cons (by decide) (Fields.ascending_singleton _)

theorem sorted_responseMeta (code : Int) (headers : List (String × String)) :
  (responseMeta code headers).Sorted
  := by
  refine ⟨?_, trivial, ?_, trivial⟩
  · exact Fields.ascending_cons_cons (by decide) (Fields.ascending_singleton _)
  · induction headers with
    | nil => trivial
    | cons header rest ih => exact ⟨⟨trivial, trivial, trivial⟩, ih⟩

/-- The keys of a written record ascend as its names do. -/
theorem ascending_fieldsToJson {fields : List (String × Value)} (h : Fields.Ascending fields) :
  Fields.Ascending (fieldsToJson fields)
  := by
  have hmap : fieldsToJson fields = fields.map fun pair => (pair.1, toJson pair.2) := by
    induction fields with
    | nil => rfl
    | cons pair rest ih => rw [fieldsToJson, ih (List.pairwise_cons.mp h).2, List.map_cons]
  rw [hmap]
  exact Fields.ascending_map h toJson

mutual

/-- What is written has the members of its objects in order. -/
theorem sorted_toJson : ∀ value : Value, value.IsProper → (toJson value).Sorted
  | .list items, h => sorted_itemsToJson items h
  | .record fields, h => ⟨ascending_fieldsToJson h.1, sorted_fieldsToJson fields h.2⟩
  | .just value, h => sorted_envelope "option" (sorted_toJson value h)
  | .ok value, h => sorted_resultEnvelope "Ok" (sorted_toJson value h)
  | .error value, h => sorted_resultEnvelope "Error" (sorted_toJson value h)
  | .errorRail value, h => sorted_envelope "errorrail" (sorted_toJson value h)
  | .response code headers body, h =>
    sorted_envelope "response" ⟨sorted_responseMeta code headers, sorted_toJson body h.2, trivial⟩
  | .float x, _ => by
      rw [toJson, Codec.finiteNumeral?]
      split
      · trivial
      · exact sorted_envelope "float" trivial
  | .int _, _ | .bool _, _ | .null, _ | .str _, _ => trivial
  | .char _, _ | .date _, _ | .password _, _ | .uuid _, _ | .bytes _, _ | .db _, _
  | .nothing, _ | .redirect _, _ | .named _, _ | .lambda _ _ _, _ | .incomplete _, _
  | .failure _ _, _ => sorted_envelope _ trivial

/-- Written items have their keys in order. -/
theorem sorted_itemsToJson : ∀ items : List Value, ItemsAreProper items →
    Json.ItemsSorted (itemsToJson items)
  | [], _ => trivial
  | item :: rest, h => ⟨sorted_toJson item h.1, sorted_itemsToJson rest h.2⟩

/-- Written fields have their keys in order. -/
theorem sorted_fieldsToJson : ∀ fields : List (String × Value), FieldsAreProper fields →
    Json.MembersSorted (fieldsToJson fields)
  | [], _ => trivial
  | (_, value) :: rest, h => ⟨sorted_toJson value h.1, sorted_fieldsToJson rest h.2⟩

end

/-! ### Envelopes -/

/-- An envelope of a text is read by its tag. -/
theorem ofJson_text {tag : String} (h : tag ∈ textTags) (text : String) :
  ofJson (envelope tag (.string text)) = readText tag text
  := by
  have hne {other : String} (hother : other ∉ textTags) : tag ≠ other := by
    rintro rfl
    exact hother h
  rw [envelope, ofJson, if_neg (hne (by decide)), if_neg (hne (by decide)), readPlain]
  · exact hne (by decide)
  · exact hne (by decide)
  · exact hne (by decide)
  · exact hne (by decide)
  · intro hnull
    cases hnull
  · intro head body hpair
    cases hpair

/-- An option with a value is read as such if the value is not null. -/
theorem ofJson_option {j : Json} (h : j ≠ .null) :
  ofJson (envelope "option" j) = (ofJson j).map .just
  := by
  rcases Classical.em (∃ head body, j = .array [head, body]) with ⟨head, body, rfl⟩ | hpair
  · conv_lhs => rw [envelope, ofJson, if_pos rfl]
  · rw [envelope, ofJson, if_pos rfl]
    · exact h
    · exact fun head body hj => hpair ⟨head, body, hj⟩

/-- A value on the error rail is read as such. -/
theorem ofJson_errorRail (j : Json) :
  ofJson (envelope "errorrail" j) = (ofJson j).map .errorRail
  := by
  have htag : "errorrail" ≠ "option" := by decide
  rcases Classical.em (j = .null) with rfl | hnull
  · conv_lhs => rw [envelope, ofJson, if_neg htag, if_pos rfl]
  · rcases Classical.em (∃ head body, j = .array [head, body]) with ⟨head, body, rfl⟩ | hpair
    · conv_lhs => rw [envelope, ofJson, if_neg htag, if_pos rfl]
    · rw [envelope, ofJson, if_neg htag, if_pos rfl]
      · exact hnull
      · exact fun head body hj => hpair ⟨head, body, hj⟩

/-- A result is read by its constructor. -/
theorem ofJson_result (constructor : String) (j : Json) :
  ofJson (resultEnvelope constructor j) = (ofJson j).bind (readResult (.string constructor))
  := by
  rw [resultEnvelope, ofJson]
  rfl

/-- The headers of a response read back. -/
theorem mapM_readHeader (headers : List (String × String)) :
  (headers.map fun (name, value) => Json.array [.string name, .string value]).mapM readHeader
    = .ok headers
  := by
  induction headers with
  | nil => rfl
  | cons header rest ih =>
    rw [List.map_cons, List.mapM_cons, ih]
    rfl

/-- A response reads back if its code has 64 bits. -/
theorem ofJson_response {code : Int} (h : isCode code = true)
    (headers : List (String × String)) (j : Json) :
  ofJson (envelope "response" (.array [responseMeta code headers, j]))
    = (ofJson j).map (.response code headers)
  := by
  obtain ⟨hinteger, hvalue⟩ := Numeral.ofInt_spec code
  have hcode : readCode (responseMeta code headers) = .ok code := by
    simp [responseMeta, readCode, Fields.get?, Json.ofInt, hinteger, hvalue, h]
  have hheaders : readHeaders (responseMeta code headers) = .ok headers := by
    rw [← mapM_readHeader headers]
    simp [responseMeta, readHeaders, Fields.get?]
  rw [envelope, ofJson, if_neg (by decide), if_neg (by decide), if_pos rfl, hcode, hheaders]
  cases ofJson j <;> rfl

/-- The first member that was written comes from the first field. -/
theorem fieldsToJson_eq_cons {fields : List (String × Value)} {name : String} {j : Json}
    {members : List (String × Json)} (h : fieldsToJson fields = (name, j) :: members) :
  ∃ value rest, fields = (name, value) :: rest ∧ toJson value = j
    ∧ fieldsToJson rest = members
  := by
  rcases fields with _ | ⟨⟨other, value⟩, rest⟩
  · cases h
  · obtain ⟨hhead, hrest⟩ := List.cons.inj h
    obtain ⟨rfl, hvalue⟩ := Prod.mk.inj hhead
    exact ⟨value, rest, rfl, hvalue, hrest⟩

theorem fieldsToJson_eq_nil {fields : List (String × Value)} (h : fieldsToJson fields = []) :
  fields = []
  := by
  rcases fields with _ | ⟨field, rest⟩
  · rfl
  · cases h

/-- A record is read as a record if it does not look like an envelope. -/
theorem ofJson_record {fields : List (String × Value)} (h : looksLikeEnvelope fields = false) :
  ofJson (.object (fieldsToJson fields)) = (membersOfJson (fieldsToJson fields)).map .record
  := by
  rw [ofJson]
  · intro tag value hmembers
    obtain ⟨first, rest, rfl, hfirst, hrest⟩ := fieldsToJson_eq_cons hmembers
    obtain ⟨second, rest, rfl, -, hrest⟩ := fieldsToJson_eq_cons hrest
    obtain rfl := fieldsToJson_eq_nil hrest
    obtain rfl := eq_str_of_toJson hfirst
    cases h
  · intro constructor values hmembers
    obtain ⟨first, rest, rfl, -, hrest⟩ := fieldsToJson_eq_cons hmembers
    obtain ⟨second, rest, rfl, hsecond, hrest⟩ := fieldsToJson_eq_cons hrest
    obtain ⟨third, rest, rfl, -, hrest⟩ := fieldsToJson_eq_cons hrest
    obtain rfl := fieldsToJson_eq_nil hrest
    obtain rfl := eq_str_of_toJson hsecond
    cases h

/-! ### Single values -/

theorem ofJson_int (n : Int) :
  ofJson (toJson (.int n)) = .ok (.int n)
  := by
  rw [toJson, Json.ofInt, ofJson, Codec.ofNumeral_ofInt]

/-- A finite float is read back. -/
theorem ofJson_float {x : Binary64} (h : x.isFinite = true) :
  ofJson (toJson (.float x)) = .ok (.float x)
  := by
  rw [toJson, Codec.finiteNumeral?, if_pos h, Option.getD_some, ofJson,
    Codec.ofNumeral_numeral h]

/-- A character is read back if it is in normal form. -/
theorem ofJson_char {text : String} (h : (Value.char text).IsProper) :
  ofJson (toJson (.char text)) = .ok (.char text)
  := by
  have hread : Value.ofCharacter text = .ok (.char text) := by
    simp [Value.ofCharacter, h.1, h.2]
  rw [toJson, ofJson_text (by decide)]
  unfold readText
  rw [hread]
  rfl

/-- A text is read back if it is in normal form. -/
theorem ofJson_str {text : String} (h : (Value.str text).IsProper) :
  ofJson (toJson (.str text)) = .ok (.str text)
  := by
  have hform : Text.nfc text = text := h
  rw [toJson, ofJson, Value.ofText, hform]

/-- A moment with whole seconds is read back. -/
theorem ofJson_date {moment : Timestamp} (h : (Value.date moment).IsProper)
    (hnanos : moment.nanos = 0) :
  ofJson (toJson (.date moment)) = .ok (.date moment)
  := by
  have htag (text : String) : readText "date" text = Codec.readDate "date" text := rfl
  rw [toJson, ofJson_text (by decide), htag, Codec.readDate_toIso "date" h hnanos]

/-- An identifier is read back. -/
theorem ofJson_uuid (id : Uuid) :
  ofJson (toJson (.uuid id)) = .ok (.uuid id)
  := by
  have htag (text : String) : readText "uuid" text = Codec.readUuid "uuid" text := rfl
  rw [toJson, ofJson_text (by decide), htag, Codec.readUuid_toText]

/-- The secret of a password is read back. -/
theorem ofJson_password (secret : List UInt8) :
  ofJson (toJson (.password secret)) = .ok (.password secret)
  := by
  have htag (text : String) :
      readText "password" text = (Codec.readBytes "password" text).map .password := rfl
  rw [toJson, ofJson_text (by decide), htag, Codec.readBytes_encode]
  rfl

/-- Bytes are read back. -/
theorem ofJson_bytes (content : List UInt8) :
  ofJson (toJson (.bytes content)) = .ok (.bytes content)
  := by
  have htag (text : String) :
      readText "bytes" text = (Codec.readBytes "bytes" text).map .bytes := rfl
  rw [toJson, ofJson_text (by decide), htag, Codec.readBytes_encode]
  rfl

theorem normalForm_just {value : Value} (h : value ≠ .null) :
  normalForm (.just value) = .just (normalForm value)
  := by
  rw [normalForm]
  exact h

/-! ### The round trip -/

mutual

/-- What was written is read as its normal form. -/
theorem ofJson_toJson : ∀ value : Value, value.IsProper → isRoundtrippable true value = true →
    ofJson (toJson value) = .ok (normalForm value)
  | .int n, _, _ => ofJson_int n
  | .float _, _, hback => ofJson_float hback
  | .bool b, _, _ => by rw [toJson, ofJson]; rfl
  | .null, _, _ => by rw [toJson, ofJson]; rfl
  | .char _, h, _ => ofJson_char h
  | .str _, h, _ => ofJson_str h
  | .list items, h, hback => by
      rw [toJson, ofJson_array, itemsOfJson_itemsToJson items h hback]
      rfl
  | .record fields, h, hback => by
      rw [isRoundtrippable, Bool.and_eq_true, Bool.not_eq_true'] at hback
      rw [toJson, ofJson_record hback.1, membersOfJson_fieldsToJson fields h.2 hback.2]
      rfl
  | .date moment, h, hback => by
      rw [isRoundtrippable, beq_iff_eq] at hback
      exact ofJson_date h hback
  | .password secret, _, _ => ofJson_password secret
  | .uuid id, _, _ => ofJson_uuid id
  | .bytes content, _, _ => ofJson_bytes content
  | .db name, _, _ => by rw [toJson, ofJson_text (by decide)]; rfl
  | .just value, h, hback => by
      rcases Classical.em (value = .null) with rfl | hnull
      · rw [toJson, toJson, envelope, ofJson, if_pos rfl]
        rfl
      · rw [toJson, ofJson_option (toJson_ne_null hnull), ofJson_toJson value h hback,
          normalForm_just hnull]
        rfl
  | .nothing, _, _ => by
      rw [toJson, envelope, ofJson, if_pos rfl]
      rfl
  | .ok value, h, hback => by
      rw [toJson, ofJson_result, ofJson_toJson value h hback]
      rfl
  | .error value, h, hback => by
      rw [toJson, ofJson_result, ofJson_toJson value h hback]
      rfl
  | .redirect url, _, _ => by rw [toJson, ofJson_text (by decide)]; rfl
  | .response code headers body, h, hback => by
      rw [toJson, ofJson_response h.1, ofJson_toJson body h.2 hback]
      rfl
  | .incomplete _, _, _ => by
      rw [toJson, envelope, ofJson, if_neg (by decide), if_neg (by decide), readPlain]
      rfl
  | .failure _ message, _, _ => by rw [toJson, ofJson_text (by decide)]; rfl
  | .errorRail value, h, hback => by
      rw [toJson, ofJson_errorRail, ofJson_toJson value h hback]
      rfl
  | .named _, _, hback => nomatch hback
  | .lambda _ _ _, _, hback => nomatch hback

/-- Items are read back as their normal forms. -/
theorem itemsOfJson_itemsToJson : ∀ items : List Value, ItemsAreProper items →
    itemsRoundtrippable true items = true →
      itemsOfJson (itemsToJson items) = .ok (itemsNormalForm items)
  | [], _, _ => rfl
  | item :: rest, h, hback => by
      rw [itemsRoundtrippable, Bool.and_eq_true, Bool.and_eq_true] at hback
      obtain ⟨⟨-, hitem⟩, hrest⟩ := hback
      rw [itemsToJson, itemsOfJson, ofJson_toJson item h.1 hitem,
        itemsOfJson_itemsToJson rest h.2 hrest]
      rfl

/-- Fields are read back as their normal forms. -/
theorem membersOfJson_fieldsToJson : ∀ fields : List (String × Value),
    FieldsAreProper fields → fieldsRoundtrippable true fields = true →
      membersOfJson (fieldsToJson fields) = .ok (fieldsNormalForm fields)
  | [], _, _ => rfl
  | (name, value) :: rest, h, hback => by
      rw [fieldsRoundtrippable, Bool.and_eq_true] at hback
      obtain ⟨hvalue, hrest⟩ := hback
      rw [fieldsToJson, membersOfJson, ofJson_toJson value h.1 hvalue,
        membersOfJson_fieldsToJson rest h.2 hrest]
      rfl

end

/-- The value of a text by the grammar of JSON alone, which reserves no name. -/
def readStrict (text : String) : Except CodecError Value :=
  match Json.parseStrict? text with
  | some j => ofJson j
  | none => .error .invalidJson

/-- Within the limit of nesting, the text of a value is read as its JSON is, if no record
begins with the reserved name. -/
theorem read_write_of_le {value : Value} (h : value.IsProper)
    (hdepth : (toJson value).nesting ≤ Json.depthLimit) (hname : value.isUnreserved = true) :
  read (write value) = ofJson (toJson value)
  := by
  rw [read, write, Codec.parseJson_compact (sorted_toJson value h) hdepth
    ((isUnreserved_toJson value).trans hname)]
  rfl

/-- A value that may lose what the format cannot hold reads back as its normal form. -/
theorem read_write {value : Value} (h : value.IsProper)
    (hback : isRoundtrippable true value = true)
    (hdepth : (toJson value).nesting ≤ Json.depthLimit) :
  readStrict (write value) = .ok (normalForm value)
    ∧ (value.isUnreserved = true → read (write value) = .ok (normalForm value))
  := by
  constructor
  · rw [readStrict, write, Json.parseStrict?_compact (sorted_toJson value h) hdepth]
    exact ofJson_toJson value h hback
  · intro hname
    rw [read_write_of_le h hdepth hname]
    exact ofJson_toJson value h hback

/-- A record with a value on the error rail inside nested lists, an option of null, and a
field that names a type. -/
def mixed : Value :=
  .record [("items", .list [.int 1, .list [.errorRail (.failure (.node 0 1) "e")]]),
    ("option", .just .null), ("type", .str "date")]

/-- What the record reads back as: the value on the error rail stands for both lists, and
the option has no value. -/
def mixedBack : Value :=
  .record [("items", .errorRail (.failure .unknown "e")), ("option", .nothing),
    ("type", .str "date")]

/-- The record is read as such by both readers. -/
theorem read_write_mixed :
  readStrict (write mixed) = .ok mixedBack ∧ read (write mixed) = .ok mixedBack
  := by
  have hproper : mixed.IsProper := by
    refine ⟨?_, ⟨trivial, ⟨trivial, trivial⟩, trivial⟩, trivial, rfl, trivial⟩
    apply Fields.ascending_cons_cons (by decide)
    exact Fields.ascending_cons_cons (by decide) (Fields.ascending_singleton _)
  obtain ⟨hstrict, hread⟩ := read_write hproper rfl (by decide)
  exact ⟨hstrict, hread (by decide)⟩

end Roundtrip

end LiveExpr
