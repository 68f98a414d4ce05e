import LiveExpr.Proofs.RoundTrip
import LiveExpr.Proofs.Words

/-!
# Reading what was read

A value that was read in the round-trip representation is read as itself from the text
that it is written as, whatever spelling it was read from.  What is read is in normal
form already: texts, moments, lists without a value on the error rail, and records that
do not look like envelopes.  Main statement: `read_write_of_read`.
-/

namespace LiveExpr

namespace Roundtrip

open Codec (bind_eq_ok map_eq_ok)
open Json (ItemsSorted MembersSorted)
open Value (IsProper ItemsAreProper FieldsAreProper reservedLast reservedRecord)

/-- Whether a value is proper and is read as itself from what it is written as. -/
structure Rereads (value : Value) : Prop where
  isProper : value.IsProper
  ofJson_toJson : ofJson (toJson value) = .ok value

/-- Whether a value is neither null nor a string, which alone are written without a
mark of their kind that a record could imitate. -/
def IsMarked : Value → Prop
  | .null | .str _ => False
  | _ => True

/-! ### Values without parts -/

/-- A value in normal form is read as itself. -/
theorem rereads_of_normalForm {value : Value} (h : value.IsProper)
    (hback : isRoundtrippable true value = true) (hform : normalForm value = value) :
  Rereads value
  := by
  refine ⟨h, ?_⟩
  rw [ofJson_toJson value h hback, hform]

/-- A text in normal form is read back. -/
theorem rereads_ofText (text : String) :
  Rereads (.ofText text)
  := rereads_of_normalForm (Value.isProper_ofText text) rfl rfl

/-- A float that no numeral states is read as itself from its word. -/
theorem rereads_word {x : Binary64} {word : String} (hfinite : x.isFinite = false)
    (hword : NumberLayout.text.write x = word) (hread : readFloat word = .ok (.float x)) :
  Rereads (.float x)
  := by
  refine ⟨trivial, ?_⟩
  rw [toJson, Codec.finiteNumeral?, hfinite, hword]
  simp only [Bool.false_eq_true, if_false, Option.getD_none]
  rw [ofJson_text (by decide)]
  exact hread

/-- An infinity is read back from its name. -/
theorem rereads_infinity (negative : Bool) :
  Rereads (.float (.infinity negative))
  := by
  cases negative with
  | false => exact rereads_word rfl rfl rfl
  | true => exact rereads_word rfl rfl rfl

/-- Whether a value is as it is read from JSON that holds no other value: it is read as
itself, it is neither null nor a string, and no record is in it. -/
structure IsFragment (value : Value) : Prop where
  rereads : Rereads value
  marked : IsMarked value
  isUnreserved : value.isUnreserved = true

/-- A number is an integer or a float, which may be too great to be finite. -/
theorem isFragment_ofNumeral (n : Numeral) :
  IsFragment (Codec.ofNumeral n)
  := by
  rw [Codec.ofNumeral]
  split
  · exact ⟨rereads_of_normalForm trivial rfl rfl, trivial, rfl⟩
  · refine ⟨?_, trivial, rfl⟩
    obtain hfinite | hinfinity := Binary64.ofDecimal_cases n.negative _ _
    · exact rereads_of_normalForm trivial hfinite rfl
    · rw [Numeral.toBinary64, hinfinity]
      exact rereads_infinity n.negative

/-- What is read as a float is a float or one of the names. -/
theorem isFragment_of_readFloat {text : String} {value : Value}
    (h : readFloat text = .ok value) :
  IsFragment value
  := by
  rw [readFloat] at h
  split at h
  · cases h
    exact ⟨rereads_word rfl rfl rfl, trivial, rfl⟩
  · split at h
    · cases h
      exact ⟨rereads_infinity false, trivial, rfl⟩
    · split at h
      · cases h
        exact ⟨rereads_infinity true, trivial, rfl⟩
      · cases h

/-- A moment is read to the second, at a day of the calendar. -/
theorem isFragment_of_readDate {tag text : String} {value : Value}
    (h : Codec.readDate tag text = .ok value) :
  IsFragment value
  := by
  rw [Codec.readDate] at h
  split at h
  · next moment hmoment =>
    cases h
    obtain ⟨-, hday⟩ := Timestamp.isValid_of_ofIso? hmoment
    exact ⟨rereads_of_normalForm hday rfl rfl, trivial, rfl⟩
  · cases h

/-- What an envelope with a string holds. -/
theorem isFragment_of_readText {tag text : String} {value : Value}
    (h : readText tag text = .ok value) :
  IsFragment value
  := by
  unfold readText at h
  split at h
  · split at h
    · next c hcharacter =>
      cases h
      have hproper := Value.isProper_ofCharacter hcharacter
      obtain ⟨text, rfl⟩ : ∃ text, value = .char text := by
        rw [Value.ofCharacter] at hcharacter
        split at hcharacter
        · exact ⟨_, (Except.ok.inj hcharacter).symm⟩
        · cases hcharacter
      exact ⟨rereads_of_normalForm hproper rfl rfl, trivial, rfl⟩
    · cases h
  · cases h
    exact ⟨rereads_of_normalForm trivial rfl rfl, trivial, rfl⟩
  · cases h
    exact ⟨rereads_of_normalForm trivial rfl rfl, trivial, rfl⟩
  · cases h
    exact ⟨rereads_of_normalForm trivial rfl rfl, trivial, rfl⟩
  · exact isFragment_of_readDate h
  · obtain ⟨secret, rfl⟩ := Codec.readBytes_map h
    exact ⟨rereads_of_normalForm trivial rfl rfl, trivial, rfl⟩
  · rw [Codec.readUuid] at h
    split at h
    · cases h
      exact ⟨rereads_of_normalForm trivial rfl rfl, trivial, rfl⟩
    · cases h
  · obtain ⟨content, rfl⟩ := Codec.readBytes_map h
    exact ⟨rereads_of_normalForm trivial rfl rfl, trivial, rfl⟩
  · exact isFragment_of_readFloat h
  · cases h

/-- What an envelope without another value holds. -/
theorem isFragment_of_readPlain {tag : String} {j : Json} {value : Value}
    (h : readPlain tag j = .ok value) :
  IsFragment value
  := by
  unfold readPlain at h
  split at h
  · cases h
  · cases h
    exact ⟨rereads_of_normalForm trivial rfl rfl, trivial, rfl⟩
  · cases h
  · cases h
  · split at h
    · exact isFragment_of_readText h
    · split at h <;> cases h

/-! ### Values with parts -/

theorem rereads_nothing :
  Rereads .nothing
  := rereads_of_normalForm trivial rfl rfl

/-- Just is read back with its payload, unless that is null. -/
theorem Rereads.just {value : Value} (h : Rereads value) (hnull : value ≠ .null) :
  Rereads (.just value)
  := by
  refine ⟨h.isProper, ?_⟩
  rw [toJson, ofJson_option (toJson_ne_null hnull), h.ofJson_toJson]
  rfl

/-- What is on the error rail is read back with its payload. -/
theorem Rereads.errorRail {value : Value} (h : Rereads value) :
  Rereads (.errorRail value)
  := by
  refine ⟨h.isProper, ?_⟩
  rw [toJson, ofJson_errorRail, h.ofJson_toJson]
  rfl

/-- A response with a code in range is read back with its body. -/
theorem Rereads.response {code : Int} {body : Value} (h : Rereads body)
    (hcode : isCode code = true) (headers : List (String × String)) :
  Rereads (.response code headers body)
  := by
  refine ⟨⟨hcode, h.isProper⟩, ?_⟩
  rw [toJson, ofJson_response hcode, h.ofJson_toJson]
  rfl

theorem Rereads.ok {value : Value} (h : Rereads value) :
  Rereads (.ok value)
  := by
  refine ⟨h.isProper, ?_⟩
  rw [toJson, ofJson_result, h.ofJson_toJson]
  rfl

theorem Rereads.error {value : Value} (h : Rereads value) :
  Rereads (.error value)
  := by
  refine ⟨h.isProper, ?_⟩
  rw [toJson, ofJson_result, h.ofJson_toJson]
  rfl

/-- A result holds the value that was read, whichever constructor it has. -/
theorem readResult_cases {constructor : Json} {part value : Value}
    (h : readResult constructor part = .ok value) :
  value = .ok part ∨ value = .error part
  := by
  unfold readResult at h
  split at h
  · exact .inl (Except.ok.inj h).symm
  · exact .inr (Except.ok.inj h).symm
  · cases h

/-- Items that are read back one by one are read back together. -/
theorem itemsOfJson_of_rereads {items : List Value} (h : ∀ item ∈ items, Rereads item) :
  itemsOfJson (itemsToJson items) = .ok items
  := by
  induction items with
  | nil => rfl
  | cons item rest ih =>
    obtain ⟨hitem, hrest⟩ := List.forall_mem_cons.mp h
    rw [itemsToJson, itemsOfJson, hitem.ofJson_toJson, ih hrest]
    rfl

/-- Fields that are read back one by one are read back together. -/
theorem membersOfJson_of_rereads {fields : List (String × Value)}
    (h : Fields.All Rereads fields) :
  membersOfJson (fieldsToJson fields) = .ok fields
  := by
  induction fields with
  | nil => rfl
  | cons field rest ih =>
    obtain ⟨hfield, hrest⟩ := List.forall_mem_cons.mp h
    rw [fieldsToJson, membersOfJson, hfield.ofJson_toJson, ih hrest]
    rfl

/-- The first item on the error rail stands for a list, and it reads back. -/
theorem rereads_ofItems {items : List Value} (h : ∀ item ∈ items, Rereads item) :
  Rereads (.ofItems items) ∧ IsMarked (.ofItems items)
  := by
  have hproper := Value.isProper_ofItems fun item hitem => (h item hitem).isProper
  cases hfound : items.find? Value.isErrorRail with
  | none =>
    have hlist : Value.ofItems items = .list items := by rw [Value.ofItems, hfound]
    rw [hlist] at hproper ⊢
    refine ⟨⟨hproper, ?_⟩, trivial⟩
    rw [toJson, ofJson_array, itemsOfJson_of_rereads h, ← hlist]
    rfl
  | some item =>
    have hitem : Value.ofItems items = item := by rw [Value.ofItems, hfound]
    have hrail := List.find?_some hfound
    rw [hitem]
    refine ⟨h item (List.mem_of_find?_eq_some hfound), ?_⟩
    cases item with
    | null | str _ => cases hrail
    | _ => trivial

/-- A record with its fields in order is read back if it does not look like an envelope. -/
theorem rereads_record {fields : List (String × Value)} (hascending : Fields.Ascending fields)
    (h : Fields.All Rereads fields) (hlooks : looksLikeEnvelope fields = false) :
  Rereads (.record fields)
  := by
  have hproper : Fields.All IsProper fields := h.mono fun _ hvalue => hvalue.isProper
  refine ⟨⟨hascending, Value.fieldsAreProper_iff.mpr hproper⟩, ?_⟩
  rw [toJson, ofJson_record hlooks, membersOfJson_of_rereads h]
  rfl

/-! ### What is read -/

/-- Whether a value is as it was read from a JSON value: it reads back, only null and
strings are read as such, and no record begins with the reserved name where no object
does. -/
structure IsReading (j : Json) (value : Value) : Prop where
  rereads : Rereads value
  kind : IsMarked value ∨ j = .null ∧ value = .null
    ∨ ∃ text, j = .string text ∧ value = .ofText text
  isUnreserved : j.isUnreserved = true → value.isUnreserved = true

theorem IsFragment.isReading {j : Json} {value : Value} (h : IsFragment value) :
  IsReading j value
  := ⟨h.rereads, .inl h.marked, fun _ => h.isUnreserved⟩

/-- Only null is read as null. -/
theorem IsReading.ne_null {j : Json} {value : Value} (h : IsReading j value) (hj : j ≠ .null) :
  value ≠ .null
  := by
  rintro rfl
  obtain hmarked | ⟨hnull, -⟩ | ⟨text, -, htext⟩ := h.kind
  · exact hmarked
  · exact hj hnull
  · cases htext

/-- A text is read from a text, and put in normal form. -/
theorem IsReading.str {j : Json} {text : String} (h : IsReading j (.str text)) :
  ∃ spelling, j = .string spelling ∧ text = Text.nfc spelling
  := by
  obtain hmarked | ⟨-, hnull⟩ | ⟨spelling, hj, htext⟩ := h.kind
  · exact hmarked.elim
  · cases hnull
  · exact ⟨spelling, hj, Value.str.inj htext⟩

/-- Whether values are as they were read from the items of an array. -/
def ItemsAreReadings (items : List Json) (values : List Value) : Prop :=
  List.Forall₂ IsReading items values

section

variable {items : List Json} {values : List Value} (h : ItemsAreReadings items values)
include h

/-- Items that were read are read back. -/
theorem ItemsAreReadings.rereads :
  ∀ value ∈ values, Rereads value
  := by
  induction h with
  | nil => exact List.forall_mem_nil _
  | cons hitem _ ih => exact List.forall_mem_cons.mpr ⟨hitem.rereads, ih⟩

theorem ItemsAreReadings.isUnreserved (hname : Json.itemsUnreserved items = true) :
  Value.itemsAreUnreserved values = true
  := by
  induction h with
  | nil => rfl
  | cons hitem _ ih =>
    rw [Json.itemsUnreserved, Bool.and_eq_true] at hname
    rw [Value.itemsAreUnreserved, hitem.isUnreserved hname.1, ih hname.2]
    rfl

end

/-- Whether fields are as they were read from members. -/
def AreReadings (members : List (String × Json)) (fields : List (String × Value)) : Prop :=
  List.Forall₂ (fun member field => member.1 = field.1 ∧ IsReading member.2 field.2) members
    fields

variable {members : List (String × Json)} {fields : List (String × Value)}

theorem AreReadings.of_cons {name : String} {value : Value}
    (h : AreReadings members ((name, value) :: fields)) :
  ∃ j rest, members = (name, j) :: rest ∧ IsReading j value ∧ AreReadings rest fields
  := by
  obtain ⟨⟨other, j⟩, rest, ⟨rfl, hvalue⟩, hrest, rfl⟩ := List.forall₂_cons_right_iff.mp h
  exact ⟨j, rest, rfl, hvalue, hrest⟩

/-- The names of fields ascend as the keys that they were read from. -/
theorem AreReadings.ascending (h : AreReadings members fields)
    (hascending : Fields.Ascending members) :
  Fields.Ascending fields
  := Fields.ascending_of_forall₂ h hascending

/-- Fields that were read are read back. -/
theorem AreReadings.rereads (h : AreReadings members fields) :
  Fields.All Rereads fields
  := by
  induction h with
  | nil => exact Fields.All.nil
  | cons hfield _ ih => exact List.forall_mem_cons.mpr ⟨hfield.2.rereads, ih⟩

theorem AreReadings.isUnreserved (h : AreReadings members fields)
    (hname : Json.membersUnreserved members = true) :
  Value.fieldsAreUnreserved fields = true
  := by
  induction h with
  | nil => rfl
  | cons hfield _ ih =>
    rw [Json.membersUnreserved, Bool.and_eq_true] at hname
    rw [Value.fieldsAreUnreserved, hfield.2.isUnreserved hname.1, ih hname.2]
    rfl

/-- Fields have the names of the members. -/
theorem AreReadings.names (h : AreReadings members fields) :
  members.map Prod.fst = fields.map Prod.fst
  := by
  induction h with
  | nil => rfl
  | cons hfield _ ih => rw [List.map_cons, List.map_cons, hfield.1, ih]

/-- Fields look like an envelope only if the members do: a string is read from a string,
and no text but the word itself is read as the type of a result. -/
theorem AreReadings.looksLikeEnvelope (h : AreReadings members fields)
    (henvelope : ∀ tag value, members = [("type", .string tag), ("value", value)] → False)
    (hresult : ∀ constructor values,
      members = [("constructor", constructor), ("type", .string "result"), ("values", values)]
        → False) :
  looksLikeEnvelope fields = false
  := by
  unfold Roundtrip.looksLikeEnvelope
  split
  · obtain ⟨type, rest, rfl, htype, h⟩ := h.of_cons
    obtain ⟨second, rest, rfl, -, h⟩ := h.of_cons
    obtain rfl := List.forall₂_nil_right_iff.mp h
    obtain ⟨spelling, rfl, -⟩ := htype.str
    exact (henvelope _ _ rfl).elim
  · obtain ⟨first, rest, rfl, -, h⟩ := h.of_cons
    obtain ⟨type, rest, rfl, htype, h⟩ := h.of_cons
    obtain ⟨third, rest, rfl, -, h⟩ := h.of_cons
    obtain rfl := List.forall₂_nil_right_iff.mp h
    obtain ⟨spelling, rfl, hform⟩ := htype.str
    have hword : "result".toList.all Text.isSmallLetter = true := by decide
    obtain rfl : spelling = "result" :=
      Text.eq_of_nfc_eq (List.all_eq_true.mp hword) hform.symm
    exact (hresult _ _ rfl).elim
  · rfl

/-- A code that was read is in range. -/
theorem isCode_of_readCode {j : Json} {code : Int} (h : readCode j = .ok code) :
  isCode code = true
  := by
  unfold readCode at h
  split at h
  · split at h
    · split at h
      · next hcode =>
        cases h
        exact hcode.2
      · cases h
    · cases h
  · cases h

/-- An envelope that holds no other value. -/
theorem ofJson_plain {tag : String} {j : Json} (hoption : tag ≠ "option")
    (hrail : tag ≠ "errorrail") (hpair : ∀ head body, j = .array [head, body] → False) :
  ofJson (envelope tag j) = readPlain tag j
  := by
  rcases Classical.em (j = .null) with rfl | hnull
  · rw [envelope, ofJson, if_neg hoption, if_neg hrail]
  · rw [envelope, ofJson, if_neg hoption, if_neg hrail]
    · exact hnull
    · exact hpair

/-- The value of an envelope begins with the reserved name where the envelope does. -/
theorem isUnreserved_of_envelope {tag : String} {j : Json}
    (h : (Json.object [("type", .string tag), ("value", j)]).isUnreserved = true) :
  j.isUnreserved = true
  := (isUnreserved_envelope tag j).symm.trans h

/-- What a JSON value is read as reads back. -/
theorem isReading_ofJson {j : Json} (hsorted : j.Sorted) {value : Value}
    (h : ofJson j = .ok value) :
  IsReading j value
  := by
  revert value hsorted
  apply ofJson.induct (fun j => j.Sorted → ∀ {value}, ofJson j = .ok value → IsReading j value)
    (fun members => MembersSorted members → ∀ {fields},
      membersOfJson members = .ok fields → AreReadings members fields)
    (fun items => ItemsSorted items → ∀ {values},
      itemsOfJson items = .ok values → ItemsAreReadings items values)
  case case1 =>
    intro _ value h
    rw [ofJson] at h
    cases h
    exact ⟨rereads_of_normalForm trivial rfl rfl, .inr (.inl ⟨rfl, rfl⟩), fun _ => rfl⟩
  case case2 =>
    intro b _ value h
    rw [ofJson] at h
    cases h
    exact ⟨rereads_of_normalForm trivial rfl rfl, .inl trivial, fun _ => rfl⟩
  case case3 =>
    intro n _ value h
    rw [ofJson] at h
    cases h
    exact (isFragment_ofNumeral n).isReading
  case case4 =>
    intro text _ value h
    rw [ofJson] at h
    cases h
    exact ⟨rereads_ofText text, .inr (.inr ⟨text, rfl, rfl⟩), fun _ => rfl⟩
  case case5 =>
    intro items ih hsorted value h
    rw [ofJson] at h
    obtain ⟨values, hvalues, rfl⟩ := map_eq_ok h
    have hreadings := ih hsorted hvalues
    obtain ⟨hrereads, hmarked⟩ := rereads_ofItems hreadings.rereads
    exact ⟨hrereads, .inl hmarked, fun hname =>
      Value.isUnreserved_ofItems (hreadings.isUnreserved hname)⟩
  case case6 =>
    intro _ value h
    rw [ofJson, if_pos rfl] at h
    cases h
    exact ⟨rereads_nothing, .inl trivial, fun _ => rfl⟩
  case case7 =>
    intro j hnull ih hsorted value h
    obtain ⟨part, hpart, rfl⟩ := map_eq_ok ((ofJson_option hnull).symm.trans h)
    have hreading := ih hsorted.2.2.1 hpart
    exact ⟨hreading.rereads.just (hreading.ne_null hnull), .inl trivial, fun hname =>
      hreading.isUnreserved (isUnreserved_of_envelope hname)⟩
  case case8 =>
    intro j _ ih hsorted value h
    obtain ⟨part, hpart, rfl⟩ := map_eq_ok ((ofJson_errorRail j).symm.trans h)
    have hreading := ih hsorted.2.2.1 hpart
    exact ⟨hreading.rereads.errorRail, .inl trivial, fun hname =>
      hreading.isUnreserved (isUnreserved_of_envelope hname)⟩
  case case9 =>
    intro head j _ _ ih hsorted value h
    rw [ofJson, if_neg (by decide), if_neg (by decide), if_pos rfl] at h
    obtain ⟨code, hcode, h⟩ := bind_eq_ok h
    obtain ⟨headers, -, h⟩ := bind_eq_ok h
    obtain ⟨body, hbody, h⟩ := bind_eq_ok h
    cases h
    have hreading := ih hsorted.2.2.1.2.1 hbody
    refine ⟨hreading.rereads.response (isCode_of_readCode hcode) headers, .inl trivial,
      fun hname => hreading.isUnreserved ?_⟩
    have hitems := Json.itemsUnreserved_iff.mp (isUnreserved_of_envelope hname)
    exact hitems j (List.mem_cons_of_mem _ List.mem_cons_self)
  case case10 =>
    intro tag hoption hrail head j hresponse _ value h
    rw [ofJson, if_neg hoption, if_neg hrail, if_neg hresponse] at h
    exact (isFragment_of_readPlain h).isReading
  case case11 =>
    intro tag j hoption hrail hpair _ value h
    have h := (ofJson_plain hoption hrail hpair).symm.trans h
    exact (isFragment_of_readPlain h).isReading
  case case12 =>
    intro constructor j ih hsorted value h
    rw [ofJson] at h
    obtain ⟨part, hpart, h⟩ := bind_eq_ok h
    have hreading := ih hsorted.2.2.2.1.1 hpart
    have hunreserved : (Json.object [("constructor", constructor), ("type", .string "result"),
        ("values", .array [j])]).isUnreserved = true → part.isUnreserved = true := by
      intro hname
      apply hreading.isUnreserved
      simp only [Json.isUnreserved, Json.membersUnreserved, Json.itemsUnreserved,
        Bool.and_eq_true, Bool.and_true] at hname
      exact hname.2.2.2
    obtain rfl | rfl := readResult_cases h
    · exact ⟨hreading.rereads.ok, .inl trivial, hunreserved⟩
    · exact ⟨hreading.rereads.error, .inl trivial, hunreserved⟩
  case case13 =>
    intro constructor j hsingle _ value h
    rw [ofJson] at h
    · cases h
    · exact hsingle
  case case14 =>
    intro members henvelope hresult ih hsorted value h
    rw [ofJson] at h
    · obtain ⟨fields, hfields, rfl⟩ := map_eq_ok h
      have hreadings := ih hsorted.2 hfields
      refine ⟨?_, .inl trivial, fun hname => ?_⟩
      · apply rereads_record (hreadings.ascending hsorted.1) hreadings.rereads
        exact hreadings.looksLikeEnvelope henvelope hresult
      · rw [Json.isUnreserved, Bool.and_eq_true] at hname
        rw [Value.isUnreserved, ← Json.startsReserved_congr hreadings.names, hname.1,
          hreadings.isUnreserved hname.2]
        rfl
    · exact henvelope
    · exact hresult
  case case15 =>
    intro _ values h
    cases h
    exact .nil
  case case16 =>
    intro item rest ih ihrest hsorted values h
    rw [itemsOfJson] at h
    obtain ⟨value, hvalue, h⟩ := bind_eq_ok h
    obtain ⟨others, hothers, h⟩ := bind_eq_ok h
    cases h
    exact .cons (ih hsorted.1 hvalue) (ihrest hsorted.2 hothers)
  case case17 =>
    intro _ fields h
    cases h
    exact .nil
  case case18 =>
    intro name member rest ih ihrest hsorted fields h
    rw [membersOfJson] at h
    obtain ⟨value, hvalue, h⟩ := bind_eq_ok h
    obtain ⟨others, hothers, h⟩ := bind_eq_ok h
    cases h
    exact .cons ⟨rfl, ih hsorted.1 hvalue⟩ (ihrest hsorted.2 hothers)

/-- What is read from the text of a value has no record that begins with the reserved
name. -/
theorem isUnreserved_of_read_write {value back : Value} (h : value.IsProper)
    (hread : read (write value) = .ok back) :
  back.isUnreserved = true
  := by
  obtain ⟨j, hparse, hback⟩ := bind_eq_ok hread
  have hparse := Codec.parse?_of_parseJson hparse
  obtain ⟨hsorted, -⟩ := Json.sorted_and_nesting_of_parse? hparse
  apply (isReading_ofJson hsorted hback).isUnreserved
  exact Json.isUnreserved_of_parse?_compact (sorted_toJson value h) hparse

/-- A value that was read is read as itself from what it is written as, if and only if no
record in it begins with the reserved name. -/
theorem read_write_of_read {text : String} {value : Value} (h : read text = .ok value)
    (hdepth : (toJson value).nesting ≤ Json.depthLimit) :
  read (write value) = .ok value ↔ value.isUnreserved = true
  := by
  obtain ⟨j, hparse, hvalue⟩ := bind_eq_ok h
  obtain ⟨hsorted, -⟩ := Codec.sorted_and_nesting_of_parseJson hparse
  obtain ⟨hproper, hreads⟩ := (isReading_ofJson hsorted hvalue).rereads
  refine ⟨isUnreserved_of_read_write hproper, fun hname => ?_⟩
  rw [read_write_of_le hproper hdepth hname, hreads]

/-- A list that holds a fake value on the error rail, whose envelope has a value of its
own. -/
def collapsing : Json :=
  .array [.ofInt 1, envelope "errorrail" (envelope "incomplete" (.array [.null]))]

/-- The list is read as the fake value on the error rail, which is read as itself. -/
theorem read_write_of_read_collapsing :
  read collapsing.compact = .ok (.errorRail (.incomplete .unknown))
    ∧ read (write (.errorRail (.incomplete .unknown))) = .ok (.errorRail (.incomplete .unknown))
  := by
  have hfake : ofJson collapsing = .ok (.errorRail (.incomplete .unknown)) := by rfl
  have hread : read collapsing.compact = .ok (.errorRail (.incomplete .unknown)) := by
    have hsorted : collapsing.Sorted :=
      ⟨trivial, sorted_envelope _ (sorted_envelope _ ⟨trivial, trivial⟩), trivial⟩
    rw [read, Codec.parseJson_compact hsorted (by decide) (by decide)]
    exact hfake
  exact ⟨hread, (read_write_of_read hread (by decide)).mpr (by decide)⟩

/-- A text in which the reserved name does not come first is read as a record, in whose own
text it does, and that text is refused. -/
theorem read_write_reservedRecord :
  reservedLast.compact = "\x7b\"a\":1,\"$serde_json::private::Number\":\"5\"\x7d"
    ∧ read reservedLast.compact = .ok reservedRecord
    ∧ (toJson reservedRecord).nesting ≤ Json.depthLimit
    ∧ read (write reservedRecord) = .error .invalidJson
  := by
  refine ⟨by decide +kernel, ?_, by decide, ?_⟩
  · rw [read, Codec.parseJson, Json.parse?, RawJson.parse?_compact]
    rfl
  · rw [read, write, Codec.parseJson, Json.parse?, RawJson.parse?_compact]
    rfl

end Roundtrip

end LiveExpr
