import LiveExpr.Codec.Error
import LiveExpr.Proofs.Calendar
import LiveExpr.Proofs.Encodings
import LiveExpr.Proofs.JsonText
import LiveExpr.Proofs.Rounding
import Mathlib.Data.List.Forall2

/-!
# Fragments read back

The pieces of text that several representations share are read as what they were written
from: numerals, dates, UUIDs, bytes, and JSON values within the limit of nesting, beyond
which nothing is read, that use no reserved name.  The names of the members of an envelope
ascend.
-/

namespace LiveExpr

theorem Numeral.ofInt_spec (n : Int) :
  (Numeral.ofInt n).isInteger = true ∧ (Numeral.ofInt n).toInt = n
  := by
  constructor
  · rfl
  · simp only [Numeral.toInt, Numeral.ofInt, decide_eq_true_eq]
    split <;> omega

/-- Fields that go with fields whose names ascend, name by name, ascend. -/
theorem Fields.ascending_of_forall₂ {α β : Type} {r : α → β → Prop} {fields : Fields α}
    {others : Fields β}
    (h : List.Forall₂ (fun field other => field.1 = other.1 ∧ r field.2 other.2) fields others)
    (hascending : fields.Ascending) :
  others.Ascending
  := by
  have hnames : fields.map Prod.fst = others.map Prod.fst := by
    clear hascending
    induction h with
    | nil => rfl
    | cons hfield _ ih => rw [List.map_cons, List.map_cons, hfield.1, ih]
  apply List.pairwise_map.mp
  rw [← hnames]
  exact List.pairwise_map.mpr hascending

namespace Codec

theorem bind_eq_ok {ε α β : Type} {x : Except ε α} {f : α → Except ε β} {b : β}
    (h : x.bind f = .ok b) :
  ∃ a, x = .ok a ∧ f a = .ok b
  := by
  cases x with
  | error e => cases h
  | ok a => exact ⟨a, rfl, h⟩

theorem map_eq_ok {ε α β : Type} {x : Except ε α} {f : α → β} {b : β}
    (h : x.map f = .ok b) :
  ∃ a, x = .ok a ∧ f a = b
  := by
  cases x with
  | error e => cases h
  | ok a => exact ⟨a, rfl, Except.ok.inj h⟩

/-- An integer reads back from its numeral. -/
theorem ofNumeral_ofInt (n : Int) :
  ofNumeral (.ofInt n) = .int n
  := by
  obtain ⟨hinteger, hvalue⟩ := Numeral.ofInt_spec n
  rw [ofNumeral, if_pos hinteger, hvalue]

/-- A finite float reads back from its numeral, which never states an integer. -/
theorem ofNumeral_numeral {x : Binary64} (h : x.isFinite = true) :
  ofNumeral (NumberLayout.json.numeral x) = .float x
  := by
  have hinteger : ¬(NumberLayout.json.numeral x).isInteger = true := by
    rw [NumberLayout.isInteger_numeral]
    decide
  rw [ofNumeral, if_neg hinteger, NumberLayout.toBinary64_numeral _ h]

/-- A whole second of the calendar reads back from its text. -/
theorem readDate_toIso (tag : String) {moment : Timestamp} (hday : moment.day.isValid = true)
    (hnanos : moment.nanos = 0) :
  readDate tag moment.toIso = .ok (.date moment)
  := by
  rw [readDate, Timestamp.ofIso?_toIso hnanos hday]
  obtain ⟨seconds, nanos⟩ := moment
  obtain rfl : nanos = 0 := hnanos
  rfl

theorem readUuid_toText (tag : String) (id : Uuid) :
  readUuid tag id.toText = .ok (.uuid id)
  := by
  rw [readUuid, Uuid.parse_toText]

theorem readBytes_encode (tag : String) (bytes : List UInt8) :
  readBytes tag (Text.Base64.standard.encode bytes) = .ok bytes
  := by
  rw [readBytes, Text.Base64.decode_encode]

theorem readBytes_map {tag text : String} {value : Value} {make : List UInt8 → Value}
    (h : (readBytes tag text).map make = .ok value) :
  ∃ bytes, value = make bytes
  := by
  obtain ⟨bytes, -, rfl⟩ := map_eq_ok h
  exact ⟨bytes, rfl⟩

section

variable {j : Json} (hsorted : j.Sorted) (hdepth : j.nesting ≤ Json.depthLimit)
  (hname : j.isUnreserved = true)
include hsorted hdepth hname

/-- The compact text of a value states the value. -/
theorem parseJson_compact :
  parseJson j.compact = .ok j
  := by
  rw [parseJson, Json.parse?_compact hsorted hdepth hname]

/-- The indented text of a value states the value. -/
theorem parseJson_pretty :
  parseJson j.pretty = .ok j
  := by
  rw [parseJson, Json.parse?_pretty hsorted hdepth hname]

end

/-- A text that nests too deep states nothing. -/
theorem parseJson_compact_of_deep {j : Json} (hdepth : Json.depthLimit < j.nesting) :
  parseJson j.compact = .error .invalidJson
  := by
  rw [parseJson, Json.parse?_compact_eq_none hdepth]

theorem parse?_of_parseJson {text : String} {j : Json} (h : parseJson text = .ok j) :
  Json.parse? text = some j
  := by
  rw [parseJson] at h
  split at h
  · next hj => rw [hj, Except.ok.inj h]
  · cases h

/-- What is read has the members of its objects in order and is nested within the limit. -/
theorem sorted_and_nesting_of_parseJson {text : String} {j : Json}
    (h : parseJson text = .ok j) :
  j.Sorted ∧ j.nesting ≤ Json.depthLimit
  := Json.sorted_and_nesting_of_parse? (parse?_of_parseJson h)

theorem ascending_envelope {α : Type} (type value : α) :
  Fields.Ascending [("type", type), ("value", value)]
  := Fields.ascending_cons_cons (by decide) (Fields.ascending_singleton _)

end Codec

end LiveExpr
