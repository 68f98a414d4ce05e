import LiveExpr.Codec.Hashable
import LiveExpr.Proofs.Encodings
import Mathlib.Tactic.Common

/-!
# The keys of recorded results

Version 1 of the hashable representation lays out the arguments as one list, in which
texts stand as they are.  Plain data whose texts cannot be taken for the layout around
them can be told apart by their bytes, and so can what is made of them with constructors
and identifiers; a string with a quote in it can be taken for two.
Main statements: `argumentBytes_inj` and `argumentBytes_quote`.
-/

namespace LiveExpr

namespace Value

mutual

/-- Whether a value is plain data whose texts cannot be taken for the layout: no string
holds a quote, and no name of a field a colon and a blank. -/
def IsLegible : Value → Prop
  | .int _ | .bool _ | .null => True
  | .str text => '"' ∉ text.toList
  | .list items => ItemsAreLegible items
  | .record fields => FieldsAreLegible fields
  | _ => False

/-- Whether the items of a list are legible. -/
def ItemsAreLegible : List Value → Prop
  | [] => True
  | item :: rest => IsLegible item ∧ ItemsAreLegible rest

/-- Whether the names and the values of fields are legible. -/
def FieldsAreLegible : List (String × Value) → Prop
  | [] => True
  | (name, value) :: rest =>
    ¬[':', ' '] <:+: name.toList ∧ IsLegible value ∧ FieldsAreLegible rest

end

mutual

/-- Whether a value is told by its text: it is made of legible data, identifiers and
constructors, and is the one that stands for all values with the same redacted text. -/
def IsTellable : Value → Prop
  | .int _ | .bool _ | .null | .uuid _ | .nothing => True
  | .str text => '"' ∉ text.toList
  | .list items => ItemsAreTellable items
  | .record fields => FieldsAreTellable fields
  | .just value | .ok value | .error value | .errorRail value => IsTellable value
  | .password secret => secret = []
  | .named name => name = .user ""
  | .incomplete source => source = .unknown
  | _ => False

/-- Whether the items of a list are tellable. -/
def ItemsAreTellable : List Value → Prop
  | [] => True
  | item :: rest => IsTellable item ∧ ItemsAreTellable rest

/-- Whether the values of fields are tellable, and their names legible. -/
def FieldsAreTellable : List (String × Value) → Prop
  | [] => True
  | (name, value) :: rest =>
    ¬[':', ' '] <:+: name.toList ∧ IsTellable value ∧ FieldsAreTellable rest

end

/-- A wrapped value is tellable if the value is. -/
@[simp]
theorem isTellable_just {value : Value} :
  (just value).IsTellable ↔ value.IsTellable
  := by rw [IsTellable]

@[simp]
theorem isTellable_ok {value : Value} :
  (ok value).IsTellable ↔ value.IsTellable
  := by rw [IsTellable]

@[simp]
theorem isTellable_error {value : Value} :
  (error value).IsTellable ↔ value.IsTellable
  := by rw [IsTellable]

@[simp]
theorem isTellable_errorRail {value : Value} :
  (errorRail value).IsTellable ↔ value.IsTellable
  := by rw [IsTellable]

mutual

/-- Legible data is told by its text. -/
theorem IsLegible.isTellable : ∀ {value : Value}, value.IsLegible → value.IsTellable
  | .int _, _ | .bool _, _ | .null, _ => trivial
  | .str _, h => h
  | .list _, h => ItemsAreLegible.areTellable h
  | .record _, h => FieldsAreLegible.areTellable h

/-- Legible items are tellable. -/
theorem ItemsAreLegible.areTellable : ∀ {items : List Value}, ItemsAreLegible items →
    ItemsAreTellable items
  | [], _ => trivial
  | _ :: _, h => ⟨h.1.isTellable, h.2.areTellable⟩

/-- Legible fields are tellable. -/
theorem FieldsAreLegible.areTellable : ∀ {fields : List (String × Value)},
    FieldsAreLegible fields → FieldsAreTellable fields
  | [], _ => trivial
  | (_, _) :: _, h => ⟨h.1, h.2.1.isTellable, h.2.2.areTellable⟩

end

end Value

namespace Hashable

open Codec (lineBreak)
open Value (ItemsAreLegible ItemsAreTellable FieldsAreTellable)

/-! ### Texts that end where they must -/

/-- Two texts of some characters are equal if what follows begins with others. -/
theorem append_inj_of_forall {p : Char → Bool} {a b r s : List Char}
    (ha : ∀ c ∈ a, p c = true) (hb : ∀ c ∈ b, p c = true)
    (hr : ∀ c ∈ r.head?, p c = false) (hs : ∀ c ∈ s.head?, p c = false)
    (h : a ++ r = b ++ s) :
  a = b ∧ r = s
  := by
  have hspan {a r : List Char} (ha : ∀ c ∈ a, p c = true) (hr : ∀ c ∈ r.head?, p c = false) :
      (a ++ r).takeWhile p = a := by
    rw [List.takeWhile_append_of_pos ha]
    cases r with
    | nil => rw [List.takeWhile_nil, List.append_nil]
    | cons c rest =>
      have hc : ¬p c = true := by simp [hr c rfl]
      rw [List.takeWhile_cons_of_neg hc, List.append_nil]
  have heq : a = b := by rw [← hspan ha hr, h, hspan hb hs]
  subst heq
  exact ⟨rfl, List.append_cancel_left h⟩

/-- Two names without a colon and a blank are equal if these follow them. -/
theorem append_inj_of_colon {a b r s : List Char} (ha : ¬[':', ' '] <:+: a)
    (hb : ¬[':', ' '] <:+: b) (h : a ++ ':' :: ' ' :: r = b ++ ':' :: ' ' :: s) :
  a = b ∧ r = s
  := by
  have hprefix {a b r s : List Char} (hb : ¬[':', ' '] <:+: b) {rest : List Char}
      (hrest : b = a ++ rest) (h : ':' :: ' ' :: r = rest ++ ':' :: ' ' :: s) :
      rest = [] := by
    rcases rest with _ | ⟨c, _ | ⟨d, rest⟩⟩
    · rfl
    · cases h
    · cases h
      refine absurd ⟨a, rest, ?_⟩ hb
      rw [hrest, List.append_assoc]
      rfl
  rcases List.append_eq_append_iff.mp h with ⟨rest, hb', hr⟩ | ⟨rest, ha', hs⟩
  · obtain rfl := hprefix hb hb' hr
    rw [List.append_nil] at hb'
    cases hr
    exact ⟨hb'.symm, rfl⟩
  · obtain rfl := hprefix ha ha' hs
    rw [List.append_nil] at ha'
    cases hs
    exact ⟨ha', rfl⟩

/-! ### Integers -/

/-- Numbers with the same digits are equal. -/
theorem toDigits_inj {n m : Nat} (h : Nat.toDigits 10 n = Nat.toDigits 10 m) :
  n = m
  := by
  rw [← (Text.toDigits_spec n).2.1, h, (Text.toDigits_spec m).2.1]

/-- The characters of integers. -/
def isNumeric (c : Char) : Bool :=
  Text.isDigit c || c == '-'

/-- A number that is not negative is written with its digits alone. -/
theorem toList_ofNat (n : Nat) :
  (toString (Int.ofNat n)).toList = Nat.toDigits 10 n
  := Nat.toList_repr

/-- A negative number is written with a sign before its digits. -/
theorem toList_negSucc (n : Nat) :
  (toString (Int.negSucc n)).toList = '-' :: Nat.toDigits 10 (n + 1)
  := by
  have htext : toString (Int.negSucc n) = "-" ++ (n + 1).repr := rfl
  rw [htext, String.toList_append, Nat.toList_repr]
  rfl

/-- Integers are written with digits and a sign only. -/
theorem isNumeric_of_toString {n : Int} {c : Char} (h : c ∈ (toString n).toList) :
  isNumeric c = true
  := by
  cases n with
  | ofNat n =>
    rw [toList_ofNat] at h
    rw [isNumeric, (Text.toDigits_spec _).1 c h, Bool.true_or]
  | negSucc n =>
    rw [toList_negSucc] at h
    obtain rfl | hdigit := List.mem_cons.mp h
    · rfl
    · rw [isNumeric, (Text.toDigits_spec _).1 c hdigit, Bool.true_or]

/-- Integers that are written alike are equal. -/
theorem toString_inj {n m : Int} (h : (toString n).toList = (toString m).toList) :
  n = m
  := by
  have hsign {k l : Nat} : Nat.toDigits 10 k ≠ '-' :: Nat.toDigits 10 l := by
    intro heq
    have hdigit := (Text.toDigits_spec k).1 _ (heq ▸ List.mem_cons_self)
    cases hdigit
  cases n with
  | ofNat n =>
    cases m with
    | ofNat m =>
      rw [toList_ofNat, toList_ofNat] at h
      rw [toDigits_inj h]
    | negSucc m =>
      rw [toList_ofNat, toList_negSucc] at h
      exact (hsign h).elim
  | negSucc n =>
    cases m with
    | ofNat m =>
      rw [toList_ofNat, toList_negSucc] at h
      exact (hsign h.symm).elim
    | negSucc m =>
      rw [toList_negSucc, toList_negSucc] at h
      have := toDigits_inj (List.cons.inj h).2
      congr 1
      omega

/-! ### The layout -/

/-- A line break is followed by the indentation. -/
theorem toList_lineBreak (indent : Nat) :
  (lineBreak indent).toList = '\n' :: List.replicate indent ' '
  := by
  simp [lineBreak, String.toList_append]

attribute [local simp] render renderItems renderFields

variable (indent : Nat) (rest : List Char)

theorem render_emptyList :
  (render indent (.list [])).toList ++ rest = '[' :: ']' :: rest
  := by
  simp

theorem render_emptyRecord :
  (render indent (.record [])).toList ++ rest = '\x7b' :: '\x7d' :: rest
  := by
  simp

/-- The rendering of a list with an item, as characters before others. -/
theorem render_items (item : Value) (items : List Value) :
  (render indent (.list (item :: items))).toList ++ rest
    = '[' :: ' ' :: ((lineBreak (indent + 2)).toList ++ ((render (indent + 2) item).toList
      ++ ((renderItems (indent + 2) items).toList ++ ((lineBreak indent).toList ++ ']' :: rest))))
  := by
  simp [String.toList_append, List.append_assoc]

theorem renderItems_cons (item : Value) (items : List Value) :
  (renderItems indent (item :: items)).toList ++ rest
    = ',' :: ' ' :: ((render indent item).toList ++ ((renderItems indent items).toList ++ rest))
  := by
  simp [String.toList_append, List.append_assoc]

/-- The rendering of a record with a field, as characters before others. -/
theorem render_fields (name : String) (value : Value) (fields : List (String × Value)) :
  (render indent (.record ((name, value) :: fields))).toList ++ rest
    = '\x7b' :: ' ' :: ((lineBreak (indent + 2)).toList ++ (name.toList ++ ':' :: ' '
      :: ((render (indent + 2) value).toList ++ ((renderFields (indent + 2) fields).toList
        ++ ((lineBreak indent).toList ++ '\x7d' :: rest)))))
  := by
  simp [String.toList_append, List.append_assoc]

theorem renderFields_cons (name : String) (value : Value) (fields : List (String × Value)) :
  (renderFields indent ((name, value) :: fields)).toList ++ rest
    = ',' :: ((lineBreak indent).toList ++ (name.toList ++ ':' :: ' '
      :: ((render indent value).toList ++ ((renderFields indent fields).toList ++ rest))))
  := by
  simp [String.toList_append, List.append_assoc]

/-- What follows a value in the layout: a comma or a line break. -/
def Ends (rest : List Char) : Prop :=
  ∀ c ∈ rest.head?, c = ',' ∨ c = '\n'

/-- A text may end before a line break. -/
theorem ends_lineBreak :
  Ends ((lineBreak indent).toList ++ rest)
  := by
  rw [toList_lineBreak]
  rintro c ⟨⟩
  exact .inr rfl

/-- A text may end before the items that follow in a list. -/
theorem ends_renderItems (items : List Value) (h : Ends rest) :
  Ends ((renderItems indent items).toList ++ rest)
  := by
  cases items with
  | nil => exact h
  | cons item items =>
    rw [renderItems_cons]
    rintro c ⟨⟩
    exact .inl rfl

/-- A text may end before the fields that follow in a record. -/
theorem ends_renderFields (fields : List (String × Value)) (h : Ends rest) :
  Ends ((renderFields indent fields).toList ++ rest)
  := by
  cases fields with
  | nil => exact h
  | cons field fields =>
    rw [renderFields_cons]
    rintro c ⟨⟩
    exact .inl rfl

/-- The character that stands for a kind of tellable values. -/
def lead : Value → Char
  | .int _ => '0'
  | .bool _ => 't'
  | .null => 'n'
  | .str _ => '"'
  | .list _ => '['
  | .record _ => '\x7b'
  | .uuid _ => 'u'
  | .password _ => 'p'
  | .named _ => 'b'
  | .incomplete _ => 'i'
  | .nothing => 'N'
  | .just _ => 'J'
  | .ok _ => 'O'
  | .error _ => 'E'
  | .errorRail _ => 'R'
  | _ => ' '

/-- The kind that the beginning of a text tells. -/
def leadOf : List Char → Char
  | '<' :: c :: _ => c
  | 'R' :: 'e' :: 's' :: 'u' :: 'l' :: 't' :: c :: _ => c
  | 'E' :: _ => 'R'
  | 'f' :: _ => 't'
  | c :: _ => if isNumeric c then '0' else c
  | [] => ' '

/-- What begins like a number is told by that. -/
theorem leadOf_numeric {c : Char} (h : isNumeric c = true) :
  leadOf (c :: rest) = '0'
  := by
  unfold leadOf
  split
  case h_5 heq =>
    cases heq
    rw [if_pos h]
  case h_6 heq => cases heq
  all_goals
    next heq =>
    cases heq
    cases h

/-- The beginning of its text tells the kind of a tellable value. -/
theorem leadOf_render {value : Value} (h : value.IsTellable) :
  leadOf ((render indent value).toList ++ rest) = lead value
  := by
  cases value with
  | int n =>
    rw [render]
    have hne : (toString n).toList ≠ [] := by
      cases n with
      | ofNat n =>
        rw [toList_ofNat]
        exact Nat.toDigits_ne_nil
      | negSucc n =>
        rw [toList_negSucc]
        exact List.cons_ne_nil _ _
    obtain ⟨c, text, htext⟩ := List.exists_cons_of_ne_nil hne
    rw [htext]
    exact leadOf_numeric _ (isNumeric_of_toString (htext ▸ List.mem_cons_self))
  | bool b => cases b <;> simp [leadOf, lead, isNumeric, Text.isDigit]
  | list items => cases items <;> simp [leadOf, lead, isNumeric, Text.isDigit]
  | record fields => cases fields <;> simp [leadOf, lead, isNumeric, Text.isDigit]
  | null | str | uuid | password | named | incomplete | nothing | just | ok | error | errorRail =>
    simp [leadOf, lead, isNumeric, Text.isDigit]
  | _ => exact h.elim

/-- What follows a value in the layout continues no integer. -/
theorem Ends.not_isNumeric {r : List Char} (h : Ends r) :
  ∀ c ∈ r.head?, isNumeric c = false
  := by
  intro c hc
  obtain rfl | rfl := h c hc
  · decide
  · decide

/-! ### Unique readability -/

/-- Whether a value is told by its text, and where the text ends. -/
def IsTold (v : Value) : Prop :=
  ∀ {w : Value} {indent : Nat} {r s : List Char}, w.IsTellable → Ends r → Ends s →
    (render indent v).toList ++ r = (render indent w).toList ++ s → v = w ∧ r = s

/-- Whether further items of a list are told by their text before a line break. -/
def ItemsAreTold (items : List Value) : Prop :=
  ∀ {others : List Value} {indent k : Nat} {r s : List Char}, ItemsAreTellable others →
    (renderItems indent items).toList ++ ((lineBreak k).toList ++ r)
      = (renderItems indent others).toList ++ ((lineBreak k).toList ++ s) →
        items = others ∧ r = s

/-- Whether further fields of a record are told by their text before a line break. -/
def FieldsAreTold (fields : List (String × Value)) : Prop :=
  ∀ {others : List (String × Value)} {indent k : Nat} {r s : List Char},
    FieldsAreTellable others →
      (renderFields indent fields).toList ++ ((lineBreak k).toList ++ r)
        = (renderFields indent others).toList ++ ((lineBreak k).toList ++ s) →
          fields = others ∧ r = s

/-- Tellable values with the same text are of the same kind. -/
theorem lead_eq {v w : Value} {indent : Nat} {r s : List Char} (hv : v.IsTellable)
    (hw : w.IsTellable)
    (h : (render indent v).toList ++ r = (render indent w).toList ++ s) :
  lead v = lead w
  := by
  rw [← leadOf_render indent r hv, h, leadOf_render indent s hw]

/-- An integer is told by its digits. -/
theorem isTold_int (n : Int) :
  IsTold (.int n)
  := by
  intro w indent r s hw hr hs h
  have hlead := lead_eq (v := .int n) trivial hw h
  cases w with
  | int m =>
    rw [render, render] at h
    obtain ⟨htext, hrest⟩ := append_inj_of_forall (fun _ => isNumeric_of_toString)
      (fun _ => isNumeric_of_toString) hr.not_isNumeric hs.not_isNumeric h
    rw [toString_inj htext]
    exact ⟨rfl, hrest⟩
  | _ => simp [lead] at hlead

/-- A boolean is told by its word. -/
theorem isTold_bool (b : Bool) :
  IsTold (.bool b)
  := by
  intro w indent r s hw _ _ h
  have hlead := lead_eq (v := .bool b) trivial hw h
  cases w with
  | bool c =>
    rw [render, render] at h
    cases b with
    | false =>
      cases c with
      | false => exact ⟨rfl, List.append_cancel_left h⟩
      | true => cases h
    | true =>
      cases c with
      | false => cases h
      | true => exact ⟨rfl, List.append_cancel_left h⟩
  | _ => simp [lead] at hlead

/-- A value that is the only one of its kind is told by its text. -/
theorem isTold_of_alone (v : Value) (hv : v.IsTellable)
    (halone : ∀ {w : Value}, w.IsTellable → lead v = lead w → v = w) :
  IsTold v
  := by
  intro w indent r s hw _ _ h
  obtain rfl := halone hw (lead_eq hv hw h)
  exact ⟨rfl, List.append_cancel_left h⟩

/-- Null is told by its word. -/
theorem isTold_null :
  IsTold .null
  := by
  refine isTold_of_alone .null trivial ?_
  intro w _ hlead
  cases w with
  | null => rfl
  | _ => simp [lead] at hlead

/-- Nothing is told by its word. -/
theorem isTold_nothing :
  IsTold .nothing
  := by
  refine isTold_of_alone .nothing trivial ?_
  intro w _ hlead
  cases w with
  | nothing => rfl
  | _ => simp [lead] at hlead

/-- Passwords are written alike; the one without a secret stands for them. -/
theorem isTold_password {secret : List UInt8} (h : secret = []) :
  IsTold (.password secret)
  := by
  subst h
  refine isTold_of_alone (.password []) rfl ?_
  intro w hw hlead
  cases w with
  | password secret => rw [show secret = [] from hw]
  | _ => simp [lead] at hlead

/-- Names of functions are written alike; the empty one stands for them. -/
theorem isTold_named {name : FunctionName} (h : name = .user "") :
  IsTold (.named name)
  := by
  subst h
  refine isTold_of_alone (.named (.user "")) rfl ?_
  intro w hw hlead
  cases w with
  | named name => rw [show name = .user "" from hw]
  | _ => simp [lead] at hlead

/-- Incomplete values are written alike; the one of no place stands for them. -/
theorem isTold_incomplete {source : Source} (h : source = .unknown) :
  IsTold (.incomplete source)
  := by
  subst h
  refine isTold_of_alone (.incomplete .unknown) rfl ?_
  intro w hw hlead
  cases w with
  | incomplete source => rw [show source = .unknown from hw]
  | _ => simp [lead] at hlead

/-- The texts of identifiers are of one length. -/
theorem isTold_uuid (id : Uuid) :
  IsTold (.uuid id)
  := by
  intro w indent r s hw _ _ h
  have hlead := lead_eq (v := .uuid id) trivial hw h
  cases w with
  | uuid other =>
    simp only [render, String.toList_append, List.append_assoc] at h
    obtain ⟨htext, hrest⟩ := List.append_inj (List.append_cancel_left h)
      ((Uuid.length_toText id).trans (Uuid.length_toText other).symm)
    rw [Uuid.toText_inj (String.toList_inj.mp htext)]
    exact ⟨rfl, List.append_cancel_left hrest⟩
  | _ => simp [lead] at hlead

/-- What a constructor with a mark of its own wraps is told if the value in it is. -/
theorem isTold_wrapped (wrap : Value → Value) (mark : String)
    (hrender : ∀ indent value, render indent (wrap value) = mark ++ render (indent + 2) value)
    (hkind : ∀ {value w}, lead (wrap value) = lead w → w.IsTellable →
      ∃ other, w = wrap other ∧ other.IsTellable)
    {value : Value} (htellable : (wrap value).IsTellable) (hvalue : IsTold value) :
  IsTold (wrap value)
  := by
  intro w indent r s hw hr hs h
  obtain ⟨other, rfl, hother⟩ := hkind (lead_eq htellable hw h) hw
  rw [hrender, hrender, String.toList_append, String.toList_append, List.append_assoc,
    List.append_assoc] at h
  obtain ⟨rfl, hrest⟩ := hvalue hother hr hs (List.append_cancel_left h)
  exact ⟨rfl, hrest⟩

/-- A wrapped value is told if the value is. -/
theorem isTold_just {value : Value} (h : (Value.just value).IsTellable) (hvalue : IsTold value) :
  IsTold (.just value)
  := by
  refine isTold_wrapped Value.just "Just " (fun _ _ => by rw [render]) ?_ h hvalue
  intro _ w hlead hw
  cases w with
  | just other => exact ⟨other, rfl, hw⟩
  | _ => simp [lead] at hlead

theorem isTold_ok {value : Value} (h : (Value.ok value).IsTellable) (hvalue : IsTold value) :
  IsTold (.ok value)
  := by
  refine isTold_wrapped Value.ok "ResultOk " (fun _ _ => by rw [render]) ?_ h hvalue
  intro _ w hlead hw
  cases w with
  | ok other => exact ⟨other, rfl, hw⟩
  | _ => simp [lead] at hlead

theorem isTold_error {value : Value} (h : (Value.error value).IsTellable) (hvalue : IsTold value) :
  IsTold (.error value)
  := by
  refine isTold_wrapped Value.error "ResultError " (fun _ _ => by rw [render]) ?_ h hvalue
  intro _ w hlead hw
  cases w with
  | error other => exact ⟨other, rfl, hw⟩
  | _ => simp [lead] at hlead

theorem isTold_errorRail {value : Value} (h : (Value.errorRail value).IsTellable)
    (hvalue : IsTold value) :
  IsTold (.errorRail value)
  := by
  refine isTold_wrapped Value.errorRail "ErrorRail: " (fun _ _ => by rw [render]) ?_ h hvalue
  intro _ w hlead hw
  cases w with
  | errorRail other => exact ⟨other, rfl, hw⟩
  | _ => simp [lead] at hlead

/-- A string without a quote ends at the quote that follows it. -/
theorem isTold_str {text : String} (htext : '"' ∉ text.toList) :
  IsTold (.str text)
  := by
  intro w indent r s hw _ _ h
  have hlead := lead_eq (v := .str text) htext hw h
  have hquote {text : String} (h : '"' ∉ text.toList) :
      ∀ c ∈ text.toList, (c != '"') = true := by
    intro c hc
    apply bne_iff_ne.mpr
    rintro rfl
    exact h hc
  cases w with
  | str other =>
    have hother : '"' ∉ other.toList := hw
    simp only [render, String.toList_append, List.append_assoc] at h
    have h := List.append_cancel_left h
    obtain ⟨htext, hrest⟩ := append_inj_of_forall (hquote htext) (hquote hother)
      (by rintro c ⟨⟩; rfl) (by rintro c ⟨⟩; rfl) h
    rw [String.toList_inj.mp htext]
    exact ⟨rfl, List.append_cancel_left hrest⟩
  | _ => simp [lead] at hlead

/-- The empty list is told by its brackets. -/
theorem isTold_emptyList :
  IsTold (.list [])
  := by
  intro w indent r s hw _ _ h
  have hlead := lead_eq (v := .list []) trivial hw h
  cases w with
  | list items =>
    rw [render_emptyList] at h
    cases items with
    | nil =>
      rw [render_emptyList] at h
      cases h
      exact ⟨rfl, rfl⟩
    | cons item items =>
      rw [render_items] at h
      cases h
  | _ => simp [lead] at hlead

/-- A list is told if its items are. -/
theorem isTold_list {item : Value} {items : List Value}
    (htellable : (Value.list (item :: items)).IsTellable) (hitem : IsTold item)
    (hitems : ItemsAreTold items) :
  IsTold (.list (item :: items))
  := by
  intro w indent r s hw _ _ h
  have hlead := lead_eq htellable hw h
  cases w with
  | list others =>
    rw [render_items] at h
    cases others with
    | nil =>
      rw [render_emptyList] at h
      cases h
    | cons other others =>
      obtain ⟨hother, hothers⟩ : other.IsTellable ∧ ItemsAreTellable others := hw
      rw [render_items] at h
      have hfirst := List.append_cancel_left (List.cons.inj (List.cons.inj h).2).2
      obtain ⟨rfl, hrest⟩ := hitem hother
        (ends_renderItems (indent + 2) _ items (ends_lineBreak indent (']' :: r)))
        (ends_renderItems (indent + 2) _ others (ends_lineBreak indent (']' :: s))) hfirst
      obtain ⟨rfl, hend⟩ := hitems hothers hrest
      exact ⟨rfl, (List.cons.inj hend).2⟩
  | _ => simp [lead] at hlead

theorem itemsAreTold_nil :
  ItemsAreTold []
  := by
  intro others indent k r s _ h
  cases others with
  | nil => exact ⟨rfl, List.append_cancel_left (List.append_cancel_left h)⟩
  | cons other others =>
    rw [renderItems_cons, toList_lineBreak] at h
    cases h

/-- Items are told if each of them is: a comma or a line break comes after each. -/
theorem itemsAreTold_cons {item : Value} {items : List Value} (hitem : IsTold item)
    (hitems : ItemsAreTold items) :
  ItemsAreTold (item :: items)
  := by
  intro others indent k r s hothers h
  rw [renderItems_cons] at h
  cases others with
  | nil =>
    rw [toList_lineBreak] at h
    cases h
  | cons other others =>
    rw [renderItems_cons] at h
    have hfirst := (List.cons.inj (List.cons.inj h).2).2
    obtain ⟨rfl, hrest⟩ := hitem hothers.1
      (ends_renderItems indent _ items (ends_lineBreak k r))
      (ends_renderItems indent _ others (ends_lineBreak k s)) hfirst
    obtain ⟨rfl, hend⟩ := hitems hothers.2 hrest
    exact ⟨rfl, hend⟩

/-- The empty record is told by its braces. -/
theorem isTold_emptyRecord :
  IsTold (.record [])
  := by
  intro w indent r s hw _ _ h
  have hlead := lead_eq (v := .record []) trivial hw h
  cases w with
  | record fields =>
    rw [render_emptyRecord] at h
    cases fields with
    | nil =>
      rw [render_emptyRecord] at h
      cases h
      exact ⟨rfl, rfl⟩
    | cons field fields =>
      rw [render_fields] at h
      cases h
  | _ => simp [lead] at hlead

/-- A record is told if its fields are. -/
theorem isTold_record {name : String} {value : Value} {fields : List (String × Value)}
    (htellable : (Value.record ((name, value) :: fields)).IsTellable) (hvalue : IsTold value)
    (hfields : FieldsAreTold fields) :
  IsTold (.record ((name, value) :: fields))
  := by
  intro w indent r s hw _ _ h
  have hlead := lead_eq htellable hw h
  cases w with
  | record others =>
    rw [render_fields] at h
    rcases others with _ | ⟨⟨other, value'⟩, others⟩
    · rw [render_emptyRecord] at h
      cases h
    · obtain ⟨hother, hvalue', hothers⟩ :
          ¬[':', ' '] <:+: other.toList ∧ value'.IsTellable ∧ FieldsAreTellable others := hw
      rw [render_fields] at h
      have hnames := List.append_cancel_left (List.cons.inj (List.cons.inj h).2).2
      obtain ⟨hname, hfirst⟩ := append_inj_of_colon htellable.1 hother hnames
      obtain rfl := String.toList_inj.mp hname
      obtain ⟨rfl, hrest⟩ := hvalue hvalue'
        (ends_renderFields (indent + 2) _ fields (ends_lineBreak indent ('\x7d' :: r)))
        (ends_renderFields (indent + 2) _ others (ends_lineBreak indent ('\x7d' :: s))) hfirst
      obtain ⟨rfl, hend⟩ := hfields hothers hrest
      exact ⟨rfl, (List.cons.inj hend).2⟩
  | _ => simp [lead] at hlead

theorem fieldsAreTold_nil :
  FieldsAreTold []
  := by
  intro others indent k r s _ h
  cases others with
  | nil => exact ⟨rfl, List.append_cancel_left (List.append_cancel_left h)⟩
  | cons other others =>
    rw [renderFields_cons, toList_lineBreak k] at h
    cases h

/-- Fields are told if their values are and no name holds what ends one. -/
theorem fieldsAreTold_cons {name : String} {value : Value} {fields : List (String × Value)}
    (hname : ¬[':', ' '] <:+: name.toList) (hvalue : IsTold value)
    (hfields : FieldsAreTold fields) :
  FieldsAreTold ((name, value) :: fields)
  := by
  intro others indent k r s hothers h
  rw [renderFields_cons] at h
  rcases others with _ | ⟨⟨other, value'⟩, others⟩
  · rw [toList_lineBreak k] at h
    cases h
  · obtain ⟨hother, hvalue', hothers⟩ := hothers
    rw [renderFields_cons] at h
    have hnames := List.append_cancel_left (List.cons.inj h).2
    obtain ⟨hname, hfirst⟩ := append_inj_of_colon hname hother hnames
    obtain rfl := String.toList_inj.mp hname
    obtain ⟨rfl, hrest⟩ := hvalue hvalue'
      (ends_renderFields indent _ fields (ends_lineBreak k r))
      (ends_renderFields indent _ others (ends_lineBreak k s)) hfirst
    obtain ⟨rfl, hend⟩ := hfields hothers hrest
    exact ⟨rfl, hend⟩

mutual

/-- Tellable values are told by their texts. -/
theorem isTold : ∀ v : Value, v.IsTellable → IsTold v
  | .int n, _ => isTold_int n
  | .bool b, _ => isTold_bool b
  | .null, _ => isTold_null
  | .str _, h => isTold_str h
  | .list [], _ => isTold_emptyList
  | .list (item :: rest), h => isTold_list h (isTold item h.1) (itemsAreTold rest h.2)
  | .record [], _ => isTold_emptyRecord
  | .record ((_, value) :: rest), h =>
    isTold_record h (isTold value h.2.1) (fieldsAreTold rest h.2.2)
  | .uuid id, _ => isTold_uuid id
  | .nothing, _ => isTold_nothing
  | .password _, h => isTold_password h
  | .named _, h => isTold_named h
  | .incomplete _, h => isTold_incomplete h
  | .just value, h => isTold_just h (isTold value (Value.isTellable_just.mp h))
  | .ok value, h => isTold_ok h (isTold value (Value.isTellable_ok.mp h))
  | .error value, h => isTold_error h (isTold value (Value.isTellable_error.mp h))
  | .errorRail value, h => isTold_errorRail h (isTold value (Value.isTellable_errorRail.mp h))
  | .float _, h | .char _, h | .date _, h | .bytes _, h | .db _, h | .redirect _, h
  | .response _ _ _, h | .lambda _ _ _, h | .failure _ _, h => h.elim

/-- Tellable items are told by their text. -/
theorem itemsAreTold : ∀ items : List Value, ItemsAreTellable items → ItemsAreTold items
  | [], _ => itemsAreTold_nil
  | item :: rest, h => itemsAreTold_cons (isTold item h.1) (itemsAreTold rest h.2)

/-- Tellable fields are told by their text. -/
theorem fieldsAreTold : ∀ fields : List (String × Value), FieldsAreTellable fields →
    FieldsAreTold fields
  | [], _ => fieldsAreTold_nil
  | (_, value) :: rest, h =>
    fieldsAreTold_cons h.1 (isTold value h.2.1) (fieldsAreTold rest h.2.2)

end

/-! ### Keys -/

/-- Lists of tellable arguments have the same bytes under version 1 only if they are
equal. -/
theorem argumentBytes_inj_of_tellable {a b : List Value} (ha : ItemsAreTellable a)
    (hb : ItemsAreTellable b) (h : argumentBytes 1 a = argumentBytes 1 b) :
  a = b
  := by
  have hbytes : (render 0 (.list a)).toUTF8.toList = (render 0 (.list b)).toUTF8.toList :=
    Except.ok.inj h
  have htext := String.toByteArray_inj.mp (Text.toList_inj hbytes)
  have hends : Ends [] := nofun
  obtain ⟨hlist, -⟩ := isTold (.list a) ha (w := .list b) hb hends hends (by rw [htext])
  exact Value.list.inj hlist

/-- Lists of legible arguments have the same bytes under version 1 only if they are
equal. -/
theorem argumentBytes_inj {a b : List Value} (ha : ItemsAreLegible a) (hb : ItemsAreLegible b)
    (h : argumentBytes 1 a = argumentBytes 1 b) :
  a = b
  := argumentBytes_inj_of_tellable ha.areTellable hb.areTellable h

/-- The bytes of different lists of legible arguments differ under version 1, so that
their hashes are equal only if the digests of the bytes collide. -/
theorem argumentBytes_ne {a b : List Value} (ha : ItemsAreLegible a) (hb : ItemsAreLegible b)
    (hne : a ≠ b) :
  argumentBytes 1 a ≠ argumentBytes 1 b
    ∧ (hash 1 a = hash 1 b → ∃ x y, argumentBytes 1 a = .ok x ∧ argumentBytes 1 b = .ok y
      ∧ x ≠ y ∧ Sha384.digest x = Sha384.digest y)
  := by
  have hbytes : argumentBytes 1 a ≠ argumentBytes 1 b := mt (argumentBytes_inj ha hb) hne
  refine ⟨hbytes, fun h => ⟨_, _, rfl, rfl, ?_, ?_⟩⟩
  · intro heq
    exact hbytes (congrArg Except.ok heq)
  · exact Text.Base64.encode_forNames_inj (Except.ok.inj h)

/-- A string and a record are not the list of the two. -/
theorem argumentBytes_ne_nested :
  argumentBytes 1 [.str "a", .record [("key", .int (-1))]]
      ≠ argumentBytes 1 [.list [.str "a", .record [("key", .int (-1))]]]
    ∧ (hash 1 [.str "a", .record [("key", .int (-1))]]
        = hash 1 [.list [.str "a", .record [("key", .int (-1))]]] →
      ∃ x y, argumentBytes 1 [.str "a", .record [("key", .int (-1))]] = .ok x
        ∧ argumentBytes 1 [.list [.str "a", .record [("key", .int (-1))]]] = .ok y
        ∧ x ≠ y ∧ Sha384.digest x = Sha384.digest y)
  := by
  have hargs : ItemsAreLegible [.str "a", .record [("key", .int (-1))]] :=
    ⟨(by decide : '"' ∉ "a".toList), ⟨by decide, trivial, trivial⟩, trivial⟩
  exact argumentBytes_ne hargs ⟨hargs, trivial⟩ nofun

/-- A string with a quote in it has the bytes of two strings. -/
theorem argumentBytes_quote :
  [Value.str "a\", \"b"] ≠ [.str "a", .str "b"]
    ∧ argumentBytes 1 [.str "a\", \"b"] = argumentBytes 1 [.str "a", .str "b"]
    ∧ hash 1 [.str "a\", \"b"] = hash 1 [.str "a", .str "b"]
  := by
  have hbytes : argumentBytes 1 [.str "a\", \"b"] = argumentBytes 1 [.str "a", .str "b"] := by rfl
  refine ⟨?_, hbytes, congrArg (Except.map digest) hbytes⟩
  intro h
  cases (List.cons.inj h).2

end Hashable

end LiveExpr
