import LiveExpr.Json.Parser
import LiveExpr.Json.Printer
import LiveExpr.Proofs.Numerals

/-!
# JSON text reads back

Whatever spells a JSON value, with blanks around items and members, is read as that value,
and so are its compact and its indented text, if the members of its objects stand in order,
its nesting keeps within the limit and no object in it begins with the reserved name of
numbers.  The first two hold of every value that is read; an object that begins with the
reserved name is read, when that name does not come first in the text, but never from the
text that it is printed as.  Main statements: `Json.parse?_compact_iff`,
`Json.parse?_pretty` and `Json.sorted_and_nesting_of_parse?`.
-/

namespace LiveExpr

namespace RawJson

open Json (escapeChar stringChars)

/-! ### Strings -/

/-- The part of a string that a character is written as. -/
def escapePart (c : Char) : StringPart :=
  if 0x20 ≤ c.toNat ∨ c ∈ ['\n', '\r', '\t'] ∨ c.toNat = 8 ∨ c.toNat = 12 then .char c
  else .unit c.toNat

/-- A character that stands for itself in a string is read as such. -/
theorem readParts?_cons {c : Char} (hquote : c ≠ '"') (hslash : c ≠ '\\')
    (hcode : 0x20 ≤ c.toNat) (rest : List Char) :
  readParts? (c :: rest)
    = (readParts? rest).map fun (parts, rest) => (.char c :: parts, rest)
  := by
  rw [readParts?, if_neg (by simp [hslash, Nat.not_lt.mpr hcode])]
  · cases readParts? rest <;> rfl
  · exact hquote
  · intro _ _ _ _ _ h _
    exact hslash h
  · intro _ _ h _
    exact hslash h

/-- A simple escape is read as the character that it stands for. -/
theorem readParts?_escape {c e : Char} (he : e ≠ 'u') (h : simpleEscape? e = some c)
    (rest : List Char) :
  readParts? ('\\' :: e :: rest)
    = (readParts? rest).map fun (parts, rest) => (.char c :: parts, rest)
  := by
  rw [readParts?, h]
  · cases readParts? rest <;> rfl
  · intro _ _ _ _ _ hu _
    exact he hu

/-- An escaped character is read as its part. -/
theorem readParts?_escapeChar (c : Char) (rest : List Char) :
  readParts? (escapeChar c ++ rest)
    = (readParts? rest).map fun (parts, rest) => (escapePart c :: parts, rest)
  := by
  unfold escapeChar
  split
  · next h => subst h; exact readParts?_escape (by decide) rfl rest
  split
  · next h => subst h; exact readParts?_escape (by decide) rfl rest
  split
  · next hquote hslash hcode =>
    rw [escapePart, if_pos (.inl hcode)]
    exact readParts?_cons hquote hslash hcode rest
  split
  · next h => subst h; exact readParts?_escape (by decide) rfl rest
  split
  · next h => subst h; exact readParts?_escape (by decide) rfl rest
  split
  · next h => subst h; exact readParts?_escape (by decide) rfl rest
  split
  · next h =>
    obtain rfl : Char.ofNat 8 = c := by rw [← h, Char.ofNat_toNat]
    exact readParts?_escape (by decide) rfl rest
  split
  · next h =>
    obtain rfl : Char.ofNat 12 = c := by rw [← h, Char.ofNat_toNat]
    exact readParts?_escape (by decide) rfl rest
  · next hcode hn hr ht hb hf =>
    have hdigits := Text.ofHexDigits?_hexDigits 4 c.toNat
    obtain ⟨a, b, x, d, h⟩ : ∃ a b x d, Text.hexDigits 4 c.toNat = [a, b, x, d] :=
      ⟨_, _, _, _, rfl⟩
    rw [h, Nat.mod_eq_of_lt (by omega)] at hdigits
    rw [h, escapePart, if_neg (by simp [hcode, hn, hr, ht, hb, hf])]
    simp only [List.cons_append, List.nil_append, readParts?, hdigits]
    cases readParts? rest <;> rfl

/-- A code unit below the surrogates is a character. -/
theorem joinParts?_unit {code : Nat} (h : code < 0xD800) (rest : List StringPart) :
  joinParts? (.unit code :: rest) = (joinParts? rest).map (Char.ofNat code :: ·)
  := by
  have hhigh : ¬(0xD800 ≤ code ∧ code < 0xDC00) := by omega
  have hlow : ¬(0xDC00 ≤ code ∧ code < 0xE000) := by omega
  have hany : ¬(0xD800 ≤ code ∧ code < 0xE000) := by omega
  rcases rest with _ | ⟨c | low, rest⟩
  · simp [joinParts?, hany]
  · simp [joinParts?, hany]
  · rw [joinParts?, if_neg hhigh, if_neg hlow]

/-- The parts that a text is written as make up the text. -/
theorem joinParts?_map_escapePart (text : List Char) :
  joinParts? (text.map escapePart) = some text
  := by
  induction text with
  | nil => rfl
  | cons c rest ih =>
    rw [List.map_cons, escapePart]
    split
    · rw [joinParts?, ih]
      rfl
    · rw [joinParts?_unit (by omega), ih, Char.ofNat_toNat]
      rfl

/-- The parts of an escaped text are read up to the closing quote. -/
theorem readParts?_flatMap (text rest : List Char) :
  readParts? (text.flatMap escapeChar ++ '"' :: rest) = some (text.map escapePart, rest)
  := by
  induction text with
  | nil => rfl
  | cons c text ih =>
    rw [List.flatMap_cons, List.append_assoc, readParts?_escapeChar, ih]
    rfl

/-- A string reads back after its opening quote. -/
theorem readString?_text (text : String) (rest : List Char) :
  readString? (text.toList.flatMap escapeChar ++ '"' :: rest) = some (some text, rest)
  := by
  rw [readString?, readParts?_flatMap]
  simp [joinParts?_map_escapePart]

/-! ### Values -/

/-- A text that begins with no blank has none to skip. -/
theorem skipBlanks_cons {c : Char} (h : isBlank c = false) (rest : List Char) :
  skipBlanks (c :: rest) = c :: rest
  := by
  rw [skipBlanks, List.dropWhile_cons_of_neg (by simp [h])]

/-- A numeral begins with a sign or a digit. -/
theorem chars_head (plus : Bool) (n : Numeral) :
  ∃ c rest, n.chars plus = c :: rest ∧ (c = '-' ∨ ∃ d : Digit, c = d.toChar)
  := by
  have hchars := n.chars_append plus []
  rw [List.append_nil] at hchars
  rw [hchars]
  rcases n.negative with _ | _
  · obtain ⟨htext, -⟩ := NumberLayout.digits_spec n.whole
    rcases hdigits : NumberLayout.digits n.whole with _ | ⟨d, ds⟩
    · exact absurd hdigits (NumberLayout.digits_ne_nil _)
    · rw [htext, hdigits]
      exact ⟨_, _, rfl, .inr ⟨d, rfl⟩⟩
  · exact ⟨_, _, rfl, .inl rfl⟩

section

attribute [local simp] readValue? readItems? readMembers?

/-- A numeral reads back as a value. -/
theorem readValue?_chars (n : Numeral) (fuel : Nat) {rest : List Char}
    (h : Numeral.Ends rest) :
  readValue? (fuel + 1) (n.chars true ++ rest) = some (.number n, rest)
  := by
  have hread := Numeral.read?_chars true n h
  obtain ⟨c, text, hchars, hc⟩ := chars_head true n
  have hdigit : ∀ d : Digit, isBlank d.toChar = false
      ∧ d.toChar ∉ ['n', 't', 'f', '"', '[', '\x7b'] := by decide
  have hmark : isBlank c = false ∧ c ∉ ['n', 't', 'f', '"', '[', '\x7b'] := by
    rcases hc with rfl | ⟨d, rfl⟩
    · decide
    · exact hdigit d
  rw [hchars, List.cons_append] at hread ⊢
  rw [readValue?, skipBlanks_cons hmark.1]
  simp only [List.mem_cons, List.not_mem_nil, or_false, not_or] at hmark
  split <;> simp_all

theorem stringChars_append (text : String) (rest : List Char) :
  stringChars text ++ rest = '"' :: (text.toList.flatMap escapeChar ++ '"' :: rest)
  := by
  simp [stringChars]

/-- A string reads back as a value. -/
theorem readValue?_string (text : String) (fuel : Nat) (rest : List Char) :
  readValue? (fuel + 1) (stringChars text ++ rest) = some (.string (some text), rest)
  := by
  have hread := readString?_text text rest
  rw [stringChars_append, readValue?, skipBlanks_cons (by decide)]
  simp [hread]

/-- No value begins with a closing bracket. -/
theorem readValue?_bracket {fuel : Nat} {text rest : List Char}
    (h : skipBlanks text = ']' :: rest) :
  readValue? fuel text = none
  := by
  cases fuel with
  | zero => rfl
  | succ fuel =>
    rw [readValue?, h]
    rfl

/-- An array reads back when its items do. -/
theorem readValue?_array {fuel : Nat} {text rest : List Char} {items : List RawJson}
    (h : readItems? fuel text = some (items, rest)) :
  readValue? (fuel + 1) ('[' :: text) = some (.array items, rest)
  := by
  rw [readValue?, skipBlanks_cons (by decide)]
  simp only
  split
  · next hbracket =>
    cases fuel with
    | zero => cases h
    | succ fuel =>
      rw [readItems?, readValue?_bracket hbracket] at h
      cases h
  · rw [h]
    rfl

/-- An object reads back when its members do. -/
theorem readValue?_object {fuel : Nat} {text rest : List Char}
    {members : List (Option String × RawJson)}
    (h : readMembers? fuel text = some (members, rest)) :
  readValue? (fuel + 1) ('\x7b' :: text) = some (.object members, rest)
  := by
  rw [readValue?, skipBlanks_cons (by decide)]
  simp only
  split
  · next hbrace =>
    cases fuel with
    | zero => cases h
    | succ fuel =>
      rw [readMembers?, hbrace] at h
      cases h
  · rw [h]
    rfl

/-- The last item reads back. -/
theorem readItems?_last {fuel : Nat} {text middle rest : List Char} {item : RawJson}
    (h : readValue? fuel text = some (item, middle)) (hend : skipBlanks middle = ']' :: rest) :
  readItems? (fuel + 1) text = some ([item], rest)
  := by
  simp [h, hend]

/-- An item before others reads back. -/
theorem readItems?_cons {fuel : Nat} {text middle rest : List Char} {item : RawJson}
    {items : List RawJson} (h : readValue? fuel text = some (item, ',' :: middle))
    (hitems : readItems? fuel middle = some (items, rest)) :
  readItems? (fuel + 1) text = some (item :: items, rest)
  := by
  simp [h, skipBlanks_cons (c := ',') (by decide), hitems]

/-- The last member reads back. -/
theorem readMembers?_last {fuel : Nat} {name : String} {text middle rest : List Char}
    {value : RawJson} (h : readValue? fuel text = some (value, middle))
    (hend : skipBlanks middle = '\x7d' :: rest) :
  readMembers? (fuel + 1) (stringChars name ++ ':' :: text)
    = some ([(some name, value)], rest)
  := by
  have hname := readString?_text name (':' :: text)
  rw [stringChars_append, readMembers?, skipBlanks_cons (by decide)]
  simp [hname, skipBlanks_cons (c := ':') (by decide), h, hend]

/-- A member before others reads back. -/
theorem readMembers?_cons {fuel : Nat} {name : String} {text middle rest : List Char}
    {value : RawJson} {members : List (Option String × RawJson)}
    (h : readValue? fuel text = some (value, ',' :: middle))
    (hmembers : readMembers? fuel middle = some (members, rest)) :
  readMembers? (fuel + 1) (stringChars name ++ ':' :: text)
    = some ((some name, value) :: members, rest)
  := by
  have hname := readString?_text name (':' :: text)
  rw [stringChars_append, readMembers?, skipBlanks_cons (by decide)]
  simp [hname, skipBlanks_cons (c := ':') (by decide), h,
    skipBlanks_cons (c := ',') (by decide), hmembers]

end

/-! ### Spellings -/

/-- Whether a text consists of blanks. -/
def AreBlanks (text : List Char) : Prop :=
  ∀ c ∈ text, isBlank c = true

section

variable {blanks : List Char} (h : AreBlanks blanks)
include h

/-- Blanks before a text are skipped. -/
theorem skipBlanks_append (text : List Char) :
  skipBlanks (blanks ++ text) = skipBlanks text
  := List.dropWhile_append_of_pos h

/-- Blanks before a value are skipped. -/
theorem readValue?_blanks (fuel : Nat) (text : List Char) :
  readValue? fuel (blanks ++ text) = readValue? fuel text
  := by
  cases fuel with
  | zero => rfl
  | succ fuel => rw [readValue?, readValue?, skipBlanks_append h]

/-- Blanks before items are skipped. -/
theorem readItems?_blanks (fuel : Nat) (text : List Char) :
  readItems? fuel (blanks ++ text) = readItems? fuel text
  := by
  cases fuel with
  | zero => rfl
  | succ fuel => rw [readItems?, readItems?, readValue?_blanks h]

/-- Blanks before members are skipped. -/
theorem readMembers?_blanks (fuel : Nat) (text : List Char) :
  readMembers? fuel (blanks ++ text) = readMembers? fuel text
  := by
  cases fuel with
  | zero => rfl
  | succ fuel => rw [readMembers?, readMembers?, skipBlanks_append h]

/-- No numeral is continued by blanks, nor by a mark of an array or an object after them. -/
theorem ends_blanks {c : Char} (hc : c ∈ [',', ']', '\x7d']) (rest : List Char) :
  Numeral.Ends (blanks ++ c :: rest)
  := by
  have hmark (d : Char) (hd : d ∈ [',', ']', '\x7d', ' ', '\n', '\r', '\t']) :
      Digit.ofChar? d = none ∧ d ≠ '.' ∧ d ≠ 'e' ∧ d ≠ 'E' := by
    simp only [List.mem_cons, List.not_mem_nil, or_false] at hd
    rcases hd with rfl | rfl | rfl | rfl | rfl | rfl | rfl <;> decide
  intro d hd
  apply hmark
  cases blanks with
  | nil =>
    obtain rfl := Option.some.inj hd
    simp only [List.mem_cons, List.not_mem_nil, or_false] at hc ⊢
    grind
  | cons b blanks =>
    obtain rfl := Option.some.inj hd
    have hblank := h b List.mem_cons_self
    simp only [isBlank, decide_eq_true_eq] at hblank
    simp only [List.mem_cons, List.not_mem_nil, or_false]
    grind

end

mutual

/-- Whether a text spells a value, with blanks around the items of arrays and the members of
objects. -/
inductive Spells : List Char → Json → Prop where
  | null : Spells ['n', 'u', 'l', 'l'] .null
  | yes : Spells ['t', 'r', 'u', 'e'] (.bool true)
  | no : Spells ['f', 'a', 'l', 's', 'e'] (.bool false)
  | number (n : Numeral) : Spells (n.chars true) (.number n)
  | string (text : String) : Spells (stringChars text) (.string text)
  | emptyArray : Spells ['[', ']'] (.array [])
  | array {text : List Char} {items : List Json} (h : SpellsItems text items) :
    Spells ('[' :: text) (.array items)
  | emptyObject : Spells ['\x7b', '\x7d'] (.object [])
  | object {text : List Char} {members : List (String × Json)}
      (h : SpellsMembers text members) :
    Spells ('\x7b' :: text) (.object members)

/-- Whether a text spells the items of an array, up to its end. -/
inductive SpellsItems : List Char → List Json → Prop where
  | last {before text after : List Char} {item : Json} (hbefore : AreBlanks before)
      (h : Spells text item) (hafter : AreBlanks after) :
    SpellsItems (before ++ (text ++ (after ++ [']']))) [item]
  | cons {before text rest : List Char} {item : Json} {items : List Json}
      (hbefore : AreBlanks before) (h : Spells text item) (hrest : SpellsItems rest items) :
    SpellsItems (before ++ (text ++ ',' :: rest)) (item :: items)

/-- Whether a text spells the members of an object, up to its end. -/
inductive SpellsMembers : List Char → List (String × Json) → Prop where
  | last {before middle text after : List Char} (name : String) {value : Json}
      (hbefore : AreBlanks before) (hmiddle : AreBlanks middle) (h : Spells text value)
      (hafter : AreBlanks after) :
    SpellsMembers (before ++ (stringChars name ++ ':' :: (middle ++ (text ++ (after ++ ['\x7d'])))))
      [(name, value)]
  | cons {before middle text rest : List Char} (name : String) {value : Json}
      {members : List (String × Json)} (hbefore : AreBlanks before)
      (hmiddle : AreBlanks middle) (h : Spells text value) (hrest : SpellsMembers rest members) :
    SpellsMembers (before ++ (stringChars name ++ ':' :: (middle ++ (text ++ ',' :: rest))))
      ((name, value) :: members)

end

mutual

/-- What spells a value is read as the value would be, with fuel for each character. -/
theorem Spells.readValue? : ∀ {text : List Char} {j : Json}, Spells text j →
    ∀ (fuel : Nat) (rest : List Char), text.length < fuel → Numeral.Ends rest →
      readValue? fuel (text ++ rest) = some (j.toRaw, rest)
  | _, _, _, 0, _, hfuel, _ => absurd hfuel (Nat.not_lt_zero _)
  | _, _, .null, _ + 1, _, _, _ => rfl
  | _, _, .yes, _ + 1, _, _, _ => rfl
  | _, _, .no, _ + 1, _, _, _ => rfl
  | _, _, .number n, fuel + 1, _, _, hrest => readValue?_chars n fuel hrest
  | _, _, .string text, fuel + 1, rest, _, _ => readValue?_string text fuel rest
  | _, _, .emptyArray, _ + 1, _, _, _ => rfl
  | _, _, .array h, fuel + 1, rest, hfuel, _ =>
    readValue?_array (h.readItems? fuel rest (Nat.lt_of_succ_lt_succ hfuel))
  | _, _, .emptyObject, _ + 1, _, _, _ => rfl
  | _, _, .object h, fuel + 1, rest, hfuel, _ =>
    readValue?_object (h.readMembers? fuel rest (Nat.lt_of_succ_lt_succ hfuel))

/-- What spells items is read up to the end of their array. -/
theorem SpellsItems.readItems? : ∀ {text : List Char} {items : List Json},
    SpellsItems text items → ∀ (fuel : Nat) (rest : List Char), text.length < fuel →
      readItems? fuel (text ++ rest) = some (Json.itemsToRaw items, rest)
  | _, _, _, 0, _, hfuel => absurd hfuel (Nat.not_lt_zero _)
  | _, _, .last hbefore h hafter, fuel + 1, rest, hfuel => by
      simp only [List.length_append, List.length_cons] at hfuel
      simp only [List.append_assoc, readItems?_blanks hbefore]
      apply readItems?_last
      · exact h.readValue? fuel _ (by omega) (ends_blanks hafter (by decide) rest)
      · exact (skipBlanks_append hafter _).trans (skipBlanks_cons (by decide) rest)
  | _, _, .cons hbefore h hrest, fuel + 1, rest, hfuel => by
      simp only [List.length_append, List.length_cons] at hfuel
      simp only [List.append_assoc, readItems?_blanks hbefore]
      apply readItems?_cons
      · exact h.readValue? fuel _ (by omega) (@ends_blanks [] nofun _ (by decide) _)
      · exact hrest.readItems? fuel rest (by omega)

/-- What spells members is read up to the end of their object. -/
theorem SpellsMembers.readMembers? : ∀ {text : List Char} {members : List (String × Json)},
    SpellsMembers text members → ∀ (fuel : Nat) (rest : List Char), text.length < fuel →
      readMembers? fuel (text ++ rest) = some (Json.membersToRaw members, rest)
  | _, _, _, 0, _, hfuel => absurd hfuel (Nat.not_lt_zero _)
  | _, _, .last name hbefore hmiddle h hafter, fuel + 1, rest, hfuel => by
      simp only [List.length_append, List.length_cons] at hfuel
      simp only [List.append_assoc, List.cons_append, readMembers?_blanks hbefore]
      apply readMembers?_last
      · rw [readValue?_blanks hmiddle]
        exact h.readValue? fuel _ (by omega) (ends_blanks hafter (by decide) rest)
      · exact (skipBlanks_append hafter _).trans (skipBlanks_cons (by decide) rest)
  | _, _, .cons name hbefore hmiddle h hrest, fuel + 1, rest, hfuel => by
      simp only [List.length_append, List.length_cons] at hfuel
      simp only [List.append_assoc, List.cons_append, readMembers?_blanks hbefore]
      apply readMembers?_cons
      · rw [readValue?_blanks hmiddle]
        exact h.readValue? fuel _ (by omega) (@ends_blanks [] nofun _ (by decide) _)
      · exact hrest.readMembers? fuel rest (by omega)

end

/-- A text that spells a value is read as the value would be. -/
theorem Spells.parse? {text : List Char} {j : Json} (h : Spells text j) :
  parse? (String.ofList text) = some j.toRaw
  := by
  have hread := h.readValue? (text.length + 1) [] (Nat.lt_succ_self _) nofun
  rw [List.append_nil] at hread
  rw [RawJson.parse?, String.toList_ofList, parseChars?, hread]
  rfl

/-! ### The compact and the indented form -/

mutual

/-- The compact form spells the value, without blanks. -/
theorem spells_compact : ∀ j : Json, Spells j.compactChars j
  | .null => .null
  | .bool true => .yes
  | .bool false => .no
  | .number n => .number n
  | .string text => .string text
  | .array [] => .emptyArray
  | .array (item :: items) => .array (spellsItems_compact (item :: items) (List.cons_ne_nil _ _))
  | .object [] => .emptyObject
  | .object (member :: members) =>
    .object (spellsMembers_compact (member :: members) (List.cons_ne_nil _ _))

/-- Items are spelled by their compact text. -/
theorem spellsItems_compact : ∀ items : List Json, items ≠ [] →
    SpellsItems (Json.compactItems items) items
  | [], h => absurd rfl h
  | [item], _ => @SpellsItems.last [] _ [] _ nofun (spells_compact item) nofun
  | item :: other :: items, _ => by
      rw [Json.compactItems]
      · exact @SpellsItems.cons [] _ _ _ _ nofun (spells_compact item)
          (spellsItems_compact (other :: items) (List.cons_ne_nil _ _))
      · nofun

/-- Members are spelled by their compact text. -/
theorem spellsMembers_compact : ∀ members : List (String × Json), members ≠ [] →
    SpellsMembers (Json.compactMembers members) members
  | [], h => absurd rfl h
  | [(name, value)], _ => by
      rw [Json.compactMembers, List.append_assoc]
      exact @SpellsMembers.last [] [] _ [] name _ nofun nofun (spells_compact value) nofun
  | (name, value) :: other :: members, _ => by
      rw [Json.compactMembers, List.append_assoc]
      · exact @SpellsMembers.cons [] [] _ _ name _ _ nofun nofun (spells_compact value)
          (spellsMembers_compact (other :: members) (List.cons_ne_nil _ _))
      · nofun

end

/-- A line break and its indentation are blanks. -/
theorem areBlanks_lineBreak (level : Nat) :
  AreBlanks (Json.lineBreak level)
  := by
  intro c hc
  rcases List.mem_cons.mp hc with rfl | hc
  · rfl
  · rw [List.eq_of_mem_replicate hc]
    rfl

theorem areBlanks_space :
  AreBlanks [' ']
  := by
  intro c hc
  rw [List.mem_singleton.mp hc]
  rfl

mutual

/-- The indented form spells the value, with a line for each item and each member. -/
theorem spells_pretty (level : Nat) : ∀ j : Json, Spells (j.prettyChars level) j
  | .null => .null
  | .bool true => .yes
  | .bool false => .no
  | .number n => .number n
  | .string text => .string text
  | .array [] => .emptyArray
  | .array (item :: items) =>
    .array (spellsItems_pretty level items (spells_pretty (level + 1) item))
  | .object [] => .emptyObject
  | .object ((name, value) :: members) =>
    .object (spellsMembers_pretty level name members (spells_pretty (level + 1) value))

/-- Items are spelled by their indented text. -/
theorem spellsItems_pretty (level : Nat) {text : List Char} {item : Json} :
    ∀ items : List Json, Spells text item →
      SpellsItems (Json.lineBreak (level + 1) ++ text ++ Json.prettyItems level items)
        (item :: items)
  | [], h => by
      rw [Json.prettyItems, List.append_assoc]
      exact .last (areBlanks_lineBreak _) h (areBlanks_lineBreak _)
  | other :: items, h => by
      rw [Json.prettyItems, List.append_assoc]
      exact .cons (areBlanks_lineBreak _) h
        (spellsItems_pretty level items (spells_pretty (level + 1) other))

/-- Members are spelled by their indented text. -/
theorem spellsMembers_pretty (level : Nat) {text : List Char} (name : String) {value : Json} :
    ∀ members : List (String × Json), Spells text value →
      SpellsMembers
        (Json.lineBreak (level + 1) ++ stringChars name ++ ':' :: ' ' :: text
          ++ Json.prettyMembers level members)
        ((name, value) :: members)
  | [], h => by
      rw [Json.prettyMembers, List.append_assoc, List.append_assoc]
      exact @SpellsMembers.last _ [' '] _ _ name _ (areBlanks_lineBreak _) areBlanks_space h
        (areBlanks_lineBreak _)
  | (other, second) :: members, h => by
      rw [Json.prettyMembers, List.append_assoc, List.append_assoc]
      exact @SpellsMembers.cons _ [' '] _ _ name _ _ (areBlanks_lineBreak _) areBlanks_space h
        (spellsMembers_pretty level other members (spells_pretty (level + 1) second))

end

/-- The compact text of a value is read as the value. -/
theorem parse?_compact (j : Json) :
  parse? j.compact = some j.toRaw
  := (spells_compact j).parse?

/-- The indented text of a value is read as the value. -/
theorem parse?_pretty (j : Json) :
  parse? j.pretty = some j.toRaw
  := (spells_pretty 0 j).parse?

end RawJson

/-! ### What was read -/

namespace Json

open RawJson (convert? convertItems? convertMembers? toJson?)

mutual

/-- Whether the members of all objects stand in order. -/
def Sorted : Json → Prop
  | .array items => ItemsSorted items
  | .object members => Fields.Ascending members ∧ MembersSorted members
  | _ => True

/-- Whether the members of all objects in some items stand in order. -/
def ItemsSorted : List Json → Prop
  | [] => True
  | item :: rest => item.Sorted ∧ ItemsSorted rest

/-- Whether the members of all objects in some members stand in order. -/
def MembersSorted : List (String × Json) → Prop
  | [] => True
  | (_, value) :: rest => value.Sorted ∧ MembersSorted rest

end

/-- Whether the first of some pairs has the reserved name of numbers. -/
def startsReserved {α : Type} : List (String × α) → Bool
  | (name, _) :: _ => name == numberKey
  | [] => false

mutual

/-- Whether no object begins with the reserved name of numbers. -/
def isUnreserved : Json → Bool
  | .array items => itemsUnreserved items
  | .object members => !startsReserved members && membersUnreserved members
  | _ => true

/-- Whether no object in some items begins with the reserved name. -/
def itemsUnreserved : List Json → Bool
  | [] => true
  | item :: rest => item.isUnreserved && itemsUnreserved rest

/-- Whether no object in some members begins with the reserved name. -/
def membersUnreserved : List (String × Json) → Bool
  | [] => true
  | (_, value) :: rest => value.isUnreserved && membersUnreserved rest

end

/-- An object would be read as a number if it begins with the reserved name. -/
theorem isNumberObject_membersToRaw (members : List (String × Json)) :
  RawJson.isNumberObject (membersToRaw members) = startsReserved members
  := by
  cases members <;> rfl

mutual

/-- What would be read is the value if it is not nested too deep, and no object begins with
the reserved name where that is looked for. -/
theorem convert?_toRaw {reserved : Bool} : ∀ (j : Json) (depth : Nat), j.Sorted →
    (reserved = true → j.isUnreserved = true) → j.nesting ≤ depth →
      convert? reserved depth j.toRaw = some j
  | .null, _, _, _, _ => by rw [toRaw, convert?]
  | .bool b, _, _, _, _ => by rw [toRaw, convert?]
  | .number n, _, _, _, _ => by rw [toRaw, convert?]
  | .string s, _, _, _, _ => by rw [toRaw, convert?, Option.map_some]
  | .array items, 0, _, _, hdepth => absurd hdepth (Nat.not_succ_le_zero _)
  | .array items, depth + 1, hsorted, hname, hdepth => by
      rw [toRaw, convert?, convertItems?_toRaw items depth hsorted hname
        (Nat.le_of_succ_le_succ hdepth), Option.map_some]
  | .object members, 0, _, _, hdepth => absurd hdepth (Nat.not_succ_le_zero _)
  | .object members, depth + 1, hsorted, hname, hdepth => by
      simp only [isUnreserved, Bool.and_eq_true, Bool.not_eq_true'] at hname
      have hobject : ¬(reserved && RawJson.isNumberObject (membersToRaw members)) = true := by
        rw [isNumberObject_membersToRaw, Bool.and_eq_true]
        exact fun h => Bool.eq_false_iff.mp (hname h.1).1 h.2
      rw [toRaw, convert?, if_neg hobject,
        convertMembers?_toRaw members depth hsorted.2 (fun h => (hname h).2)
          (Nat.le_of_succ_le_succ hdepth),
        Option.map_some, ofPairs, Fields.ofPairs_of_ascending hsorted.1]

/-- Items are kept by a reader under a limit that they do not exceed. -/
theorem convertItems?_toRaw {reserved : Bool} : ∀ (items : List Json) (depth : Nat),
    ItemsSorted items → (reserved = true → itemsUnreserved items = true) →
      itemsNesting items ≤ depth → convertItems? reserved depth (itemsToRaw items) = some items
  | [], _, _, _, _ => rfl
  | item :: rest, depth, hsorted, hname, hdepth => by
      obtain ⟨hitem, hrest⟩ := Nat.max_le.mp hdepth
      simp only [itemsUnreserved, Bool.and_eq_true] at hname
      rw [itemsToRaw, convertItems?,
        convert?_toRaw item depth hsorted.1 (fun h => (hname h).1) hitem,
        convertItems?_toRaw rest depth hsorted.2 (fun h => (hname h).2) hrest]
      rfl

/-- Members are kept by a reader under a limit that they do not exceed. -/
theorem convertMembers?_toRaw {reserved : Bool} : ∀ (members : List (String × Json))
    (depth : Nat), MembersSorted members →
      (reserved = true → membersUnreserved members = true) →
        membersNesting members ≤ depth →
          convertMembers? reserved depth (membersToRaw members) = some members
  | [], _, _, _, _ => rfl
  | (name, value) :: rest, depth, hsorted, hname, hdepth => by
      obtain ⟨hvalue, hrest⟩ := Nat.max_le.mp hdepth
      simp only [membersUnreserved, Bool.and_eq_true] at hname
      rw [membersToRaw, convertMembers?,
        convert?_toRaw value depth hsorted.1 (fun h => (hname h).1) hvalue,
        convertMembers?_toRaw rest depth hsorted.2 (fun h => (hname h).2) hrest]
      rfl

end

section

variable {j : Json} (hsorted : j.Sorted) (hdepth : j.nesting ≤ depthLimit)
include hsorted hdepth

/-- By the grammar alone the compact text of a value states the value. -/
theorem parseStrict?_compact :
  parseStrict? j.compact = some j
  := by
  rw [parseStrict?, RawJson.parse?_compact, Option.bind_some]
  exact convert?_toRaw j _ hsorted (fun h => nomatch h) hdepth

variable (hname : j.isUnreserved = true)
include hname

/-- The compact text of a value states the value. -/
theorem parse?_compact :
  parse? j.compact = some j
  := by
  rw [parse?, RawJson.parse?_compact, Option.bind_some, toJson?,
    convert?_toRaw j _ hsorted (fun _ => hname) hdepth]

/-- The indented text of a value states the value. -/
theorem parse?_pretty :
  parse? j.pretty = some j
  := by
  rw [parse?, RawJson.parse?_pretty, Option.bind_some, toJson?,
    convert?_toRaw j _ hsorted (fun _ => hname) hdepth]

end

mutual

/-- What is nested too deep states no value. -/
theorem convert?_toRaw_eq_none {reserved : Bool} : ∀ (j : Json) (depth : Nat),
    depth < j.nesting → convert? reserved depth j.toRaw = none
  | .null, _, hdepth | .bool _, _, hdepth | .number _, _, hdepth | .string _, _, hdepth =>
    absurd hdepth (Nat.not_lt_zero _)
  | .array _, 0, _ => by rw [toRaw, convert?]
  | .array items, depth + 1, hdepth => by
      rw [toRaw, convert?, convertItems?_toRaw_eq_none items depth
        (Nat.lt_of_succ_lt_succ hdepth), Option.map_none]
  | .object _, 0, _ => by rw [toRaw, convert?]
  | .object members, depth + 1, hdepth => by
      have hdepth := Nat.lt_of_succ_lt_succ hdepth
      rw [toRaw, convert?]
      split
      · rw [objectNumber?_membersToRaw_eq_none members hdepth, Option.map_none]
      · rw [convertMembers?_toRaw_eq_none members depth hdepth, Option.map_none]

/-- Items that nest too deep are refused. -/
theorem convertItems?_toRaw_eq_none {reserved : Bool} : ∀ (items : List Json) (depth : Nat),
    depth < itemsNesting items → convertItems? reserved depth (itemsToRaw items) = none
  | [], _, hdepth => absurd hdepth (Nat.not_lt_zero _)
  | item :: rest, depth, hdepth => by
      rw [itemsToRaw, convertItems?]
      rcases lt_max_iff.mp hdepth with hitem | hrest
      · rw [convert?_toRaw_eq_none item depth hitem]
        rfl
      · rw [convertItems?_toRaw_eq_none rest depth hrest]
        cases convert? reserved depth item.toRaw <;> rfl

/-- Members that nest too deep are refused. -/
theorem convertMembers?_toRaw_eq_none {reserved : Bool} :
    ∀ (members : List (String × Json)) (depth : Nat), depth < membersNesting members →
      convertMembers? reserved depth (membersToRaw members) = none
  | [], _, hdepth => absurd hdepth (Nat.not_lt_zero _)
  | (_, value) :: rest, depth, hdepth => by
      rw [membersToRaw, convertMembers?]
      rcases lt_max_iff.mp hdepth with hvalue | hrest
      · rw [convert?_toRaw_eq_none value depth hvalue]
        rfl
      · rw [convertMembers?_toRaw_eq_none rest depth hrest]
        cases convert? reserved depth value.toRaw <;> rfl

/-- An object with an array or an object in it is no number. -/
theorem objectNumber?_membersToRaw_eq_none : ∀ (members : List (String × Json)) {depth : Nat},
    depth < membersNesting members → RawJson.objectNumber? (membersToRaw members) = none
  | [], _, hdepth => absurd hdepth (Nat.not_lt_zero _)
  | [(_, .string _)], _, hdepth => absurd hdepth (Nat.not_lt_zero _)
  | [(_, .null)], _, _ | [(_, .bool _)], _, _ | [(_, .number _)], _, _ | [(_, .array _)], _, _
  | [(_, .object _)], _, _ => rfl
  | (_, value) :: _ :: _, _, _ => by cases value <;> rfl

end

/-- The compact text of a value that is nested too deep states no value. -/
theorem parse?_compact_eq_none {j : Json} (hdepth : depthLimit < j.nesting) :
  parse? j.compact = none
  := by
  rw [parse?, RawJson.parse?_compact, Option.bind_some, toJson?, convert?_toRaw_eq_none j _ hdepth]

theorem itemsSorted_iff {items : List Json} :
  ItemsSorted items ↔ ∀ item ∈ items, item.Sorted
  := by
  induction items with
  | nil => simp [ItemsSorted]
  | cons item rest ih => simp [ItemsSorted, ih]

theorem itemsNesting_le_iff {items : List Json} {depth : Nat} :
  itemsNesting items ≤ depth ↔ ∀ item ∈ items, item.nesting ≤ depth
  := by
  induction items with
  | nil => simp [itemsNesting]
  | cons item rest ih => simp [itemsNesting, ih]

theorem membersSorted_iff {members : List (String × Json)} :
  MembersSorted members ↔ Fields.All Sorted members
  := by
  induction members with
  | nil => simp [MembersSorted, Fields.All]
  | cons member rest ih =>
    rw [Fields.All] at ih ⊢
    simp [MembersSorted, ih]

theorem membersNesting_le_iff {members : List (String × Json)} {depth : Nat} :
  membersNesting members ≤ depth ↔ Fields.All (fun j => j.nesting ≤ depth) members
  := by
  induction members with
  | nil => simp [membersNesting, Fields.All]
  | cons member rest ih =>
    rw [Fields.All] at ih ⊢
    simp [membersNesting, ih]

/-- The object of some pairs has its members in order if theirs are, and is nested as deep. -/
theorem sorted_and_nesting_ofPairs {pairs : List (String × Json)} {depth : Nat}
    (hsorted : MembersSorted pairs) (hnesting : membersNesting pairs ≤ depth) :
  (ofPairs pairs).Sorted ∧ membersNesting (Fields.ofPairs pairs) ≤ depth
  := by
  have hsorted := membersSorted_iff.mp hsorted
  have hnesting := membersNesting_le_iff.mp hnesting
  exact ⟨⟨Fields.ascending_ofPairs pairs, membersSorted_iff.mpr (.ofPairs hsorted)⟩,
    membersNesting_le_iff.mpr (.ofPairs hnesting)⟩

mutual

/-- A value that was read has the members of its objects in order and is not nested too
deep. -/
theorem sorted_and_nesting_of_convert? {reserved : Bool} :
    ∀ (raw : RawJson) {depth : Nat} {j : Json}, convert? reserved depth raw = some j →
      j.Sorted ∧ j.nesting ≤ depth
  | .null, _, _, h | .bool _, _, _, h | .number _, _, _, h => by
      rw [convert?] at h
      obtain rfl := Option.some.inj h
      exact ⟨trivial, Nat.zero_le _⟩
  | .string _, _, _, h => by
      rw [convert?, Option.map_eq_some_iff] at h
      obtain ⟨text, -, rfl⟩ := h
      exact ⟨trivial, Nat.zero_le _⟩
  | .array items, 0, _, h => by
      rw [convert?] at h
      cases h
  | .array items, depth + 1, _, h => by
      rw [convert?, Option.map_eq_some_iff] at h
      obtain ⟨values, hvalues, rfl⟩ := h
      obtain ⟨hsorted, hnesting⟩ := sorted_and_nesting_of_convertItems? items hvalues
      exact ⟨hsorted, Nat.succ_le_succ hnesting⟩
  | .object members, 0, _, h => by
      rw [convert?] at h
      cases h
  | .object members, depth + 1, _, h => by
      rw [convert?] at h
      split at h
      · obtain ⟨n, -, rfl⟩ := Option.map_eq_some_iff.mp h
        exact ⟨trivial, Nat.zero_le _⟩
      · obtain ⟨pairs, hpairs, rfl⟩ := Option.map_eq_some_iff.mp h
        obtain ⟨hsorted, hnesting⟩ := sorted_and_nesting_of_convertMembers? members hpairs
        obtain ⟨hsorted, hnesting⟩ := sorted_and_nesting_ofPairs hsorted hnesting
        exact ⟨hsorted, Nat.succ_le_succ hnesting⟩

/-- Items that are accepted are sorted and not too deep. -/
theorem sorted_and_nesting_of_convertItems? {reserved : Bool} :
    ∀ (items : List RawJson) {depth : Nat} {values : List Json},
      convertItems? reserved depth items = some values →
        ItemsSorted values ∧ itemsNesting values ≤ depth
  | [], _, _, h => by
      obtain rfl := Option.some.inj h
      exact ⟨trivial, Nat.zero_le _⟩
  | item :: rest, _, _, h => by
      rw [convertItems?] at h
      obtain ⟨value, hvalue, h⟩ := Option.bind_eq_some_iff.mp h
      obtain ⟨values, hvalues, h⟩ := Option.bind_eq_some_iff.mp h
      obtain rfl := Option.some.inj h
      obtain ⟨hitem, hdepth⟩ := sorted_and_nesting_of_convert? item hvalue
      obtain ⟨hrest, hdepths⟩ := sorted_and_nesting_of_convertItems? rest hvalues
      exact ⟨⟨hitem, hrest⟩, Nat.max_le.mpr ⟨hdepth, hdepths⟩⟩

/-- Members that are accepted are sorted and not too deep. -/
theorem sorted_and_nesting_of_convertMembers? {reserved : Bool} :
    ∀ (members : List (Option String × RawJson)) {depth : Nat} {pairs : List (String × Json)},
      convertMembers? reserved depth members = some pairs →
        MembersSorted pairs ∧ membersNesting pairs ≤ depth
  | [], _, _, h => by
      obtain rfl := Option.some.inj h
      exact ⟨trivial, Nat.zero_le _⟩
  | (name, member) :: rest, _, _, h => by
      rw [convertMembers?] at h
      obtain ⟨name, -, h⟩ := Option.bind_eq_some_iff.mp h
      obtain ⟨value, hvalue, h⟩ := Option.bind_eq_some_iff.mp h
      obtain ⟨pairs, hpairs, h⟩ := Option.bind_eq_some_iff.mp h
      obtain rfl := Option.some.inj h
      obtain ⟨hmember, hdepth⟩ := sorted_and_nesting_of_convert? member hvalue
      obtain ⟨hrest, hdepths⟩ := sorted_and_nesting_of_convertMembers? rest hpairs
      exact ⟨⟨hmember, hrest⟩, Nat.max_le.mpr ⟨hdepth, hdepths⟩⟩

end

/-- The value that a text states has the members of its objects in order, and is nested
within the limit. -/
theorem sorted_and_nesting_of_parse? {text : String} {j : Json} (h : parse? text = some j) :
  j.Sorted ∧ j.nesting ≤ depthLimit
  := by
  obtain ⟨raw, -, hraw⟩ := Option.bind_eq_some_iff.mp h
  exact sorted_and_nesting_of_convert? raw hraw

/-! ### What is read of what was printed -/

theorem itemsUnreserved_iff {items : List Json} :
  itemsUnreserved items = true ↔ ∀ item ∈ items, item.isUnreserved = true
  := by
  induction items with
  | nil => simp [itemsUnreserved]
  | cons item rest ih => simp [itemsUnreserved, ih]

/-- Whether pairs begin with the reserved name is seen from their names. -/
theorem startsReserved_congr {α β : Type} {pairs : List (String × α)}
    {others : List (String × β)} (h : pairs.map Prod.fst = others.map Prod.fst) :
  startsReserved pairs = startsReserved others
  := by
  cases pairs with
  | nil =>
    obtain rfl := List.map_eq_nil_iff.mp h.symm
    rfl
  | cons pair rest =>
    obtain ⟨other, others, rfl, hname, -⟩ := List.map_eq_cons_iff.mp h.symm
    rw [startsReserved, startsReserved, hname]

/-- What members are read as has their names. -/
theorem names_of_convertMembers? {reserved : Bool} {depth : Nat}
    {members pairs : List (String × Json)}
    (h : convertMembers? reserved depth (membersToRaw members) = some pairs) :
  pairs.map Prod.fst = members.map Prod.fst
  := by
  induction members generalizing pairs with
  | nil =>
    obtain rfl := Option.some.inj h
    rfl
  | cons member rest ih =>
    rw [membersToRaw, convertMembers?] at h
    obtain ⟨name, hname, h⟩ := Option.bind_eq_some_iff.mp h
    obtain ⟨value, -, h⟩ := Option.bind_eq_some_iff.mp h
    obtain ⟨others, hothers, h⟩ := Option.bind_eq_some_iff.mp h
    obtain rfl := Option.some.inj h
    obtain rfl := Option.some.inj hname
    rw [List.map_cons, List.map_cons, ih hothers]

mutual

/-- What is read of a value as it is printed has no object that begins with the reserved
name: in the text of an object its least name comes first. -/
theorem isUnreserved_of_convert?_toRaw : ∀ (j : Json) {depth : Nat} {read : Json}, j.Sorted →
    convert? true depth j.toRaw = some read → read.isUnreserved = true
  | .null, _, _, _, h | .bool _, _, _, _, h | .number _, _, _, _, h | .string _, _, _, _, h => by
      rw [toRaw, convert?] at h
      obtain rfl := Option.some.inj h
      rfl
  | .array items, 0, _, _, h => by
      rw [toRaw, convert?] at h
      cases h
  | .array items, depth + 1, _, hsorted, h => by
      rw [toRaw, convert?, Option.map_eq_some_iff] at h
      obtain ⟨values, hvalues, rfl⟩ := h
      exact itemsUnreserved_of_convertItems?_toRaw items hsorted hvalues
  | .object members, 0, _, _, h => by
      rw [toRaw, convert?] at h
      cases h
  | .object members, depth + 1, _, hsorted, h => by
      rw [toRaw, convert?, Bool.true_and, isNumberObject_membersToRaw] at h
      split at h
      · obtain ⟨n, -, rfl⟩ := Option.map_eq_some_iff.mp h
        rfl
      · next hname =>
        obtain ⟨pairs, hpairs, rfl⟩ := Option.map_eq_some_iff.mp h
        have hnames := names_of_convertMembers? hpairs
        have hascending : Fields.Ascending pairs := by
          apply List.pairwise_map.mp
          rw [hnames]
          exact List.pairwise_map.mpr hsorted.1
        rw [ofPairs, Fields.ofPairs_of_ascending hascending, isUnreserved,
          startsReserved_congr hnames, Bool.eq_false_iff.mpr hname,
          membersUnreserved_of_convertMembers?_toRaw members hsorted.2 hpairs]
        rfl

/-- Items that a reader with reserved keys keeps hold none. -/
theorem itemsUnreserved_of_convertItems?_toRaw : ∀ (items : List Json) {depth : Nat}
    {values : List Json}, ItemsSorted items →
      convertItems? true depth (itemsToRaw items) = some values → itemsUnreserved values = true
  | [], _, _, _, h => by
      obtain rfl := Option.some.inj h
      rfl
  | item :: rest, _, _, hsorted, h => by
      rw [itemsToRaw, convertItems?] at h
      obtain ⟨value, hvalue, h⟩ := Option.bind_eq_some_iff.mp h
      obtain ⟨values, hvalues, h⟩ := Option.bind_eq_some_iff.mp h
      obtain rfl := Option.some.inj h
      rw [itemsUnreserved, isUnreserved_of_convert?_toRaw item hsorted.1 hvalue,
        itemsUnreserved_of_convertItems?_toRaw rest hsorted.2 hvalues]
      rfl

/-- Members that a reader with reserved keys keeps hold none. -/
theorem membersUnreserved_of_convertMembers?_toRaw : ∀ (members : List (String × Json))
    {depth : Nat} {pairs : List (String × Json)}, MembersSorted members →
      convertMembers? true depth (membersToRaw members) = some pairs →
        membersUnreserved pairs = true
  | [], _, _, _, h => by
      obtain rfl := Option.some.inj h
      rfl
  | (name, member) :: rest, _, _, hsorted, h => by
      rw [membersToRaw, convertMembers?] at h
      obtain ⟨_, -, h⟩ := Option.bind_eq_some_iff.mp h
      obtain ⟨value, hvalue, h⟩ := Option.bind_eq_some_iff.mp h
      obtain ⟨pairs, hpairs, h⟩ := Option.bind_eq_some_iff.mp h
      obtain rfl := Option.some.inj h
      rw [membersUnreserved, isUnreserved_of_convert?_toRaw member hsorted.1 hvalue,
        membersUnreserved_of_convertMembers?_toRaw rest hsorted.2 hpairs]
      rfl

end

/-- No object of a value that was printed and read again begins with the reserved name. -/
theorem isUnreserved_of_parse?_compact {j read : Json} (hsorted : j.Sorted)
    (h : parse? j.compact = some read) :
  read.isUnreserved = true
  := by
  rw [parse?, RawJson.parse?_compact, Option.bind_some] at h
  exact isUnreserved_of_convert?_toRaw j hsorted h

/-- What is accepted from an indented text holds no reserved key. -/
theorem isUnreserved_of_parse?_pretty {j read : Json} (hsorted : j.Sorted)
    (h : parse? j.pretty = some read) :
  read.isUnreserved = true
  := by
  rw [parse?, RawJson.parse?_pretty, Option.bind_some] at h
  exact isUnreserved_of_convert?_toRaw j hsorted h

/-- The compact text of a value states the value if and only if no object in it begins with
the reserved name. -/
theorem parse?_compact_iff {j : Json} (hsorted : j.Sorted) (hdepth : j.nesting ≤ depthLimit) :
  parse? j.compact = some j ↔ j.isUnreserved = true
  := ⟨isUnreserved_of_parse?_compact hsorted, parse?_compact hsorted hdepth⟩

end Json

end LiveExpr
