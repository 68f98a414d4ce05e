import LiveExpr.Proofs.Numerals
import LiveExpr.Text.Base64
import LiveExpr.Uuid
import Mathlib.Tactic.Common

/-!
# Base64 and UUIDs read back

Bytes read back from their standard form, and a UUID from its hyphenated form; the form
for names tells bytes apart.  Main statements: `Base64.decode_encode`,
`Base64.encode_forNames_inj` and `Uuid.parse_toText`.
-/

namespace LiveExpr

namespace Text

/-! ### Bytes of a text -/

/-- The bytes of a loop over a byte array are those that it still has to see. -/
theorem toList_loop_eq (bytes : ByteArray) (i : Nat) (before : List UInt8) :
  ByteArray.toList.loop bytes i before = before.reverse ++ bytes.data.toList.drop i
  := by
  induction i, before using ByteArray.toList.loop.induct bytes with
  | case1 i before hi ih =>
    have hlength : i < bytes.data.toList.length := hi
    have hget : bytes.get! i = bytes.data.toList[i] := by
      rw [ByteArray.get!, Array.getElem_toList]
      exact getElem!_pos bytes.data i hi
    rw [ByteArray.toList.loop, if_pos hi, ih, List.drop_eq_getElem_cons hlength, hget,
      List.reverse_cons, List.append_assoc]
    rfl
  | case2 i before hi =>
    have hlength : bytes.data.toList.length ≤ i := Nat.le_of_not_lt hi
    rw [ByteArray.toList.loop, if_neg hi, List.drop_eq_nil_of_le hlength, List.append_nil]

theorem toList_inj {a b : ByteArray} (h : a.toList = b.toList) :
  a = b
  := by
  rw [ByteArray.toList, toList_loop_eq, ByteArray.toList, toList_loop_eq] at h
  exact ByteArray.ext (Array.toList_inj.mp h)

/-- The byte of an ASCII character. -/
def byte (c : Char) : UInt8 :=
  UInt8.ofNat c.toNat

/-- The bytes of an ASCII text are those of its characters. -/
theorem toUTF8_ofList {text : List Char} (h : ∀ c ∈ text, c.toNat < 128) :
  (String.ofList text).toUTF8.toList = text.map byte
  := by
  have hencode : text.flatMap String.utf8EncodeChar = text.map byte := by
    induction text with
    | nil => rfl
    | cons c rest ih =>
      have hc : c.val.toNat ≤ 0x7f := Nat.le_of_lt_succ (h c List.mem_cons_self)
      rw [List.flatMap_cons, ih fun c hc => h c (List.mem_cons_of_mem _ hc),
        String.utf8EncodeChar]
      simp only [hc, if_true]
      rfl
  rw [String.toUTF8_eq_toByteArray, String.toByteArray_ofList, ByteArray.toList,
    toList_loop_eq, List.utf8Encode, List.toList_data_toByteArray, hencode]
  rfl

namespace Base64

/-! ### Base64 -/

/-- The numbers of the symbols that a list of bytes is written with. -/
def sextets : List UInt8 → List Nat
  | [] => []
  | [a] => [a.toNat / 4, a.toNat % 4 * 16]
  | [a, b] => [a.toNat / 4, (a.toNat % 4 * 16 + b.toNat / 16), b.toNat % 16 * 4]
  | a :: b :: c :: rest =>
    a.toNat / 4 :: (a.toNat % 4 * 16 + b.toNat / 16)
      :: (b.toNat % 16 * 4 + c.toNat / 64) :: c.toNat % 64 :: sextets rest

/-- The byte of the symbol of a number. -/
def symbolByte (n : Nat) : UInt8 :=
  byte (standard.symbol n)

theorem value?_symbolByte {n : Nat} (h : n < 64) :
  value? (symbolByte n) = some n
  := by
  revert n
  decide

theorem symbolByte_ne_pad {n : Nat} (h : n < 64) :
  symbolByte n ≠ pad
  := by
  revert n
  decide

theorem symbol_lt {n : Nat} (h : n < 64) :
  (standard.symbol n).toNat < 128
  := by
  revert n
  decide

theorem ofNat_eq {n : Nat} {a : UInt8} (h : n = a.toNat) :
  UInt8.ofNat n = a
  := by
  rw [h, UInt8.ofNat_toNat]

/-- The numbers of the symbols stand for the bytes that were written. -/
theorem toBytes_sextets : ∀ bytes : List UInt8, toBytes (sextets bytes) = bytes
  | [] => rfl
  | [a] => by
      rw [sextets, toBytes, ofNat_eq (a := a) (by omega)]
  | [a, b] => by
      have hb := b.toNat_lt
      rw [sextets, toBytes, ofNat_eq (a := a) (by omega), ofNat_eq (a := b) (by omega)]
  | a :: b :: c :: rest => by
      have hb := b.toNat_lt
      have hc := c.toNat_lt
      rw [sextets, toBytes, ofNat_eq (a := a) (by omega), ofNat_eq (a := b) (by omega),
        ofNat_eq (a := c) (by omega), toBytes_sextets rest]

/-- The numbers of symbols are below 64. -/
theorem sextets_lt : ∀ bytes : List UInt8, ∀ n ∈ sextets bytes, n < 64
  | [], _, hn => nomatch hn
  | [a], n, hn => by
      have ha := a.toNat_lt
      simp only [sextets, List.mem_cons, List.not_mem_nil, or_false] at hn
      omega
  | [a, b], n, hn => by
      have ha := a.toNat_lt
      have hb := b.toNat_lt
      simp only [sextets, List.mem_cons, List.not_mem_nil, or_false] at hn
      omega
  | a :: b :: c :: rest, n, hn => by
      have ha := a.toNat_lt
      have hb := b.toNat_lt
      have hc := c.toNat_lt
      simp only [sextets, List.mem_cons] at hn
      rcases hn with hn | hn | hn | hn | hn
      · omega
      · omega
      · omega
      · omega
      · exact sextets_lt rest n hn

/-- Reading symbols gives their numbers. -/
theorem readSymbols_map (offset : Nat) {values : List Nat} (h : ∀ n ∈ values, n < 64) :
  readSymbols offset (values.map symbolByte) = .ok values
  := by
  induction values generalizing offset with
  | nil => rfl
  | cons n rest ih =>
    rw [List.map_cons, readSymbols, value?_symbolByte (h n List.mem_cons_self)]
    dsimp only
    rw [ih _ fun n hn => h n (List.mem_cons_of_mem _ hn)]
    rfl

/-- Reading symbols of the last group appends their numbers. -/
theorem readTail_map (offset index : Nat) {values : List Nat} (h : ∀ n ∈ values, n < 64)
    (before : List Nat) (last : UInt8) (rest : List UInt8) :
  ∃ last', readTail offset index ⟨before, last, none, 0⟩ (values.map symbolByte ++ rest)
    = readTail offset (index + values.length) ⟨before ++ values, last', none, 0⟩ rest
  := by
  induction values generalizing index before last with
  | nil =>
    use last
    rw [List.map_nil, List.nil_append, List.append_nil]
    rfl
  | cons n values ih =>
    have hn := h n List.mem_cons_self
    obtain ⟨last', hlast⟩ := ih (index + 1) (fun n hn => h n (List.mem_cons_of_mem _ hn))
      (before ++ [n]) (symbolByte n)
    use last'
    rw [List.map_cons, List.cons_append, readTail, if_neg (symbolByte_ne_pad hn)]
    simp only [value?_symbolByte hn, hlast, List.length_cons, List.append_assoc,
      List.singleton_append]
    congr 1
    omega

/-- Reading padding counts it. -/
theorem readTail_replicate (offset index : Nat) (hindex : 2 ≤ index) (count : Nat)
    (tail : Tail) :
  ∃ tail', readTail offset index tail (List.replicate count pad) = .ok tail'
    ∧ tail'.values = tail.values ∧ tail'.pads = tail.pads + count
  := by
  induction count generalizing index tail with
  | zero => exact ⟨tail, rfl, rfl, rfl⟩
  | succ count ih =>
    obtain ⟨tail', hread, hvalues, hpads⟩ := ih (index + 1) (by omega)
      { tail with firstPad := tail.firstPad.or (some index), pads := tail.pads + 1 }
    use tail'
    rw [List.replicate_succ, readTail, if_pos rfl, if_neg (by omega)]
    use hread, hvalues
    rw [hpads]
    dsimp only
    omega

/-- A last group of symbols and padding. -/
structure IsLastGroup (values : List Nat) : Prop where
  lower : 2 ≤ values.length
  upper : values.length ≤ 4
  leftover : leftover values = 0

/-- The last group is read as its numbers. -/
theorem readTail_lastGroup (offset : Nat) {last : List Nat} (hlast : IsLastGroup last)
    (h : ∀ n ∈ last, n < 64) :
  ∃ tail, readTail offset 0 ⟨[], 0, none, 0⟩
      (last.map symbolByte ++ List.replicate (4 - last.length) pad) = .ok tail
    ∧ tail.values = last ∧ tail.pads = 4 - last.length
  := by
  obtain ⟨byte, hsymbols⟩ := readTail_map offset 0 h [] 0 (List.replicate (4 - last.length) pad)
  obtain ⟨tail, hread, hvalues, hpads⟩ := readTail_replicate offset (0 + last.length)
    (by have := hlast.lower; omega) (4 - last.length) ⟨[] ++ last, byte, none, 0⟩
  use tail
  rw [hsymbols]
  use hread, hvalues
  rw [hpads]
  exact Nat.zero_add _

/-- Full groups and a last group are read as the bytes that their numbers stand for. -/
theorem decodeBytes_groups {values last : List Nat} (hvalues : values.length % 4 = 0)
    (hlast : IsLastGroup last) (h : ∀ n ∈ values ++ last, n < 64) :
  decodeBytes ((values ++ last).map symbolByte ++ List.replicate (4 - last.length) pad)
    = .ok (toBytes (values ++ last))
  := by
  have hlower := hlast.lower
  have hupper := hlast.upper
  have hsymbols := readSymbols_map 0 fun n hn => h n (List.mem_append_left _ hn)
  obtain ⟨tail, htail, hread, hpads⟩ := readTail_lastGroup values.length hlast
    fun n hn => h n (List.mem_append_right _ hn)
  have htext : (values ++ last).map symbolByte ++ List.replicate (4 - last.length) pad
      = values.map symbolByte
        ++ (last.map symbolByte ++ List.replicate (4 - last.length) pad) := by
    rw [List.map_append, List.append_assoc]
  have hsize : (last.map symbolByte ++ List.replicate (4 - last.length) pad).length = 4 := by
    rw [List.length_append, List.length_map, List.length_replicate]
    omega
  rw [htext, decodeBytes]
  generalize last.map symbolByte ++ List.replicate (4 - last.length) pad = group at hsize htail
  have hlength : (values.map symbolByte ++ group).length = values.length + 4 := by
    rw [List.length_append, List.length_map, hsize]
  have hoffset : values.length + 4 - ((values.length + 4 - 1) % 4 + 1) = values.length := by
    omega
  rcases hfinal : (values.map symbolByte ++ group).getLast? with _ | final
  · rw [List.getLast?_eq_none_iff.mp hfinal] at hlength
    exact absurd hlength (by simp)
  · have htake : (values.map symbolByte ++ group).take values.length
        = values.map symbolByte := by
      simp
    have hdrop : (values.map symbolByte ++ group).drop values.length = group := by
      simp
    dsimp only
    rw [if_neg (by omega), hlength, hoffset, htake, hdrop, hsymbols, htail]
    have hcount : (last.length + (4 - last.length)) % 4 = 0 := by omega
    simp [hread, hpads, hcount, hlast.leftover, Nat.not_lt.mpr hlower, bind, Except.bind]

/-- Bytes are written in full groups of symbols and a last group, which is padded. -/
theorem encodeChars_groups : ∀ bytes : List UInt8, bytes ≠ [] →
    ∃ values last, values.length % 4 = 0 ∧ IsLastGroup last ∧ sextets bytes = values ++ last
      ∧ standard.encodeChars bytes
        = (values ++ last).map standard.symbol ++ List.replicate (4 - last.length) '='
  | [], h => absurd rfl h
  | [a], _ => by
      refine ⟨[], sextets [a], rfl, ⟨by simp [sextets], by simp [sextets], ?_⟩, rfl, rfl⟩
      exact Nat.mul_mod_left _ 16
  | [a, b], _ => by
      refine ⟨[], sextets [a, b], rfl, ⟨by simp [sextets], by simp [sextets], ?_⟩, rfl, rfl⟩
      exact Nat.mul_mod_left _ 4
  | [a, b, c], _ =>
    ⟨[], sextets [a, b, c], rfl, ⟨by simp [sextets], by simp [sextets], rfl⟩, rfl, rfl⟩
  | a :: b :: c :: d :: rest, _ => by
      obtain ⟨values, last, hvalues, hlast, hsextets, hchars⟩ :=
        encodeChars_groups (d :: rest) (List.cons_ne_nil _ _)
      refine ⟨a.toNat / 4 :: (a.toNat % 4 * 16 + b.toNat / 16)
        :: (b.toNat % 16 * 4 + c.toNat / 64) :: c.toNat % 64 :: values, last, ?_, hlast, ?_, ?_⟩
      · simp only [List.length_cons]
        omega
      · rw [sextets, hsextets]
        rfl
      · rw [Alphabet.encodeChars, hchars]
        rfl

/-- Bytes read back from their standard form. -/
theorem decode_encode (bytes : List UInt8) :
  decode (standard.encode bytes) = .ok bytes
  := by
  rcases Decidable.em (bytes = []) with rfl | hbytes
  · have hempty : ∀ c ∈ standard.encodeChars [], c.toNat < 128 := nofun
    rw [decode, Alphabet.encode, toUTF8_ofList hempty]
    rfl
  · obtain ⟨values, last, hvalues, hlast, hsextets, hchars⟩ := encodeChars_groups bytes hbytes
    have hlt : ∀ n ∈ values ++ last, n < 64 := by
      rw [← hsextets]
      exact sextets_lt bytes
    have hascii : ∀ c ∈ standard.encodeChars bytes, c.toNat < 128 := by
      intro c hc
      rw [hchars, List.mem_append] at hc
      rcases hc with hc | hc
      · obtain ⟨n, hn, rfl⟩ := List.mem_map.mp hc
        exact symbol_lt (hlt n hn)
      · rw [List.eq_of_mem_replicate hc]
        decide
    have hpad : byte '=' = pad := rfl
    rw [decode, Alphabet.encode, toUTF8_ofList hascii, hchars, List.map_append, List.map_map,
      List.map_replicate, hpad]
    refine Eq.trans (decodeBytes_groups hvalues hlast hlt) ?_
    rw [← hsextets, toBytes_sextets]

/-- The form for names has one symbol for each number. -/
theorem encodeChars_forNames (bytes : List UInt8) :
  forNames.encodeChars bytes = (sextets bytes).map forNames.symbol
  := by
  induction bytes using sextets.induct with
  | case1 => rfl
  | case2 => rfl
  | case3 => rfl
  | case4 a b c rest ih =>
    rw [Alphabet.encodeChars, ih]
    rfl

/-- The number whose symbol in the form for names is a character. -/
def nameNumber (c : Char) : Nat :=
  if c = '-' then 62
  else if c = '_' then 63
  else if c.toNat < 65 then c.toNat + 4
  else if c.toNat < 97 then c.toNat - 65
  else c.toNat - 71

theorem nameNumber_symbol {n : Nat} (h : n < 64) :
  nameNumber (forNames.symbol n) = n
  := by
  revert n
  decide

theorem symbol_inj {n m : Nat} (hn : n < 64) (hm : m < 64)
    (h : forNames.symbol n = forNames.symbol m) :
  n = m
  := by
  rw [← nameNumber_symbol hn, h, nameNumber_symbol hm]

theorem map_symbol_inj {ns ms : List Nat} (hns : ∀ n ∈ ns, n < 64) (hms : ∀ m ∈ ms, m < 64)
    (h : ns.map forNames.symbol = ms.map forNames.symbol) :
  ns = ms
  := by
  induction ns generalizing ms with
  | nil => exact (List.map_eq_nil_iff.mp h.symm).symm
  | cons n ns ih =>
    cases ms with
    | nil => cases h
    | cons m ms =>
      obtain ⟨hn, hns⟩ := List.forall_mem_cons.mp hns
      obtain ⟨hm, hms⟩ := List.forall_mem_cons.mp hms
      obtain ⟨hsymbol, hrest⟩ := List.cons.inj h
      rw [symbol_inj hn hm hsymbol, ih hns hms hrest]

/-- Bytes are told by their form for names. -/
theorem encode_forNames_inj {a b : List UInt8} (h : forNames.encode a = forNames.encode b) :
  a = b
  := by
  have hchars := String.ofList_inj.mp h
  rw [encodeChars_forNames, encodeChars_forNames] at hchars
  have hsextets := map_symbol_inj (sextets_lt a) (sextets_lt b) hchars
  rw [← toBytes_sextets a, hsextets, toBytes_sextets]

end Base64

end Text

/-! ### UUIDs -/

namespace Uuid

open Text

/-- A hexadecimal digit is an ASCII character and no hyphen. -/
theorem hexDigit_spec {n : Nat} (h : n < 16) :
  (hexDigit n).utf8Size = 1 ∧ hexDigit n ≠ '-'
  := by
  revert n
  decide

theorem mem_hexDigits {width n : Nat} {c : Char} (h : c ∈ hexDigits width n) :
  c.utf8Size = 1 ∧ c ≠ '-'
  := by
  induction width generalizing n with
  | zero => cases h
  | succ width ih =>
    rw [hexDigits, List.mem_append, List.mem_singleton] at h
    rcases h with h | rfl
    · exact ih h
    · exact hexDigit_spec (Nat.mod_lt n (by decide))

theorem byteLength_eq {text : List Char} (h : ∀ c ∈ text, c.utf8Size = 1) :
  byteLength text = text.length
  := by
  induction text with
  | nil => rfl
  | cons c rest ih =>
    rw [byteLength, List.foldr_cons, ← byteLength, h c List.mem_cons_self,
      ih fun c hc => h c (List.mem_cons_of_mem _ hc), List.length_cons, Nat.add_comm]

/-- The five groups of digits put together are the digits. -/
theorem groups_append (digits : List Char) :
  digits.take 8 ++ ((digits.drop 8).take 4 ++ ((digits.drop 12).take 4
    ++ ((digits.drop 16).take 4 ++ digits.drop 20))) = digits
  := by
  have hdrop (n : Nat) : (digits.drop n).take 4 ++ digits.drop (n + 4) = digits.drop n := by
    rw [← List.drop_drop, List.take_append_drop]
  rw [hdrop 16, hdrop 12, hdrop 8, List.take_append_drop]

/-- Digits are what remains of their hyphenated form without hyphens. -/
theorem filter_hyphenate {digits : List Char} (h : ∀ c ∈ digits, c ≠ '-') :
  (hyphenate digits).filter (· ≠ '-') = digits
  := by
  have hself {part : List Char} (hpart : part ⊆ digits) : part.filter (· ≠ '-') = part := by
    rw [List.filter_eq_self]
    intro c hc
    exact decide_eq_true (h c (hpart hc))
  have htake (n k : Nat) : (digits.drop n).take k ⊆ digits :=
    fun _ hc => List.mem_of_mem_drop (List.mem_of_mem_take hc)
  have hhyphen (rest : List Char) : ('-' :: rest).filter (· ≠ '-') = rest.filter (· ≠ '-') :=
    rfl
  simp only [hyphenate, List.filter_append, hhyphen, hself (List.take_subset 8 digits),
    hself (htake 8 4), hself (htake 12 4), hself (htake 16 4),
    hself (List.drop_subset 20 digits), List.append_assoc]
  exact groups_append digits

/-- The hyphenated form of 32 digits is read as their UUID. -/
theorem parseChars_hyphenate {digits : List Char} {n : Nat} (hlength : digits.length = 32)
    (hmem : ∀ c ∈ digits, c.utf8Size = 1 ∧ c ≠ '-') (hvalue : ofHexDigits? digits = some n) :
  parseChars (hyphenate digits) = .ok ⟨BitVec.ofNat 128 n⟩
  := by
  have hfilter := filter_hyphenate fun c hc => (hmem c hc).2
  have hsize : byteLength (hyphenate digits) = 36 := by
    rw [byteLength_eq]
    · simp [hyphenate, hlength]
    · intro c hc
      rcases Decidable.em (c = '-') with rfl | hne
      · decide
      · apply (hmem c _).1
        rw [← hfilter]
        exact List.mem_filter.mpr ⟨hc, decide_eq_true hne⟩
  have hpart : hyphenatedPart? (hyphenate digits) = some (hyphenate digits) := by
    rw [hyphenatedPart?, hsize]
    rfl
  have hread : ofHyphenated? (hyphenate digits) = some ⟨BitVec.ofNat 128 n⟩ := by
    rw [ofHyphenated?, hfilter, if_pos rfl, ofDigits?, if_pos hlength, hvalue]
    rfl
  rw [parseChars, hpart]
  dsimp only
  rw [hread]

/-- A UUID reads back from its hyphenated form. -/
theorem parse_toText (u : Uuid) :
  parse u.toText = .ok u
  := by
  have hvalue := ofHexDigits?_hexDigits 32 u.value.toNat
  have hlt : u.value.toNat < 16 ^ 32 := u.value.isLt
  rw [Nat.mod_eq_of_lt hlt] at hvalue
  rw [parse, toText, String.toList_ofList,
    parseChars_hyphenate (length_hexDigits 32 _) (fun _ hc => mem_hexDigits hc) hvalue,
    BitVec.ofNat_toNat, BitVec.setWidth_eq]

theorem toText_inj {u v : Uuid} (h : u.toText = v.toText) :
  u = v
  := by
  have hparse := parse_toText u
  rw [h, parse_toText v] at hparse
  exact (Except.ok.inj hparse).symm

/-- The text of a UUID has 36 characters. -/
theorem length_toText (u : Uuid) :
  u.toText.toList.length = 36
  := by
  rw [toText, String.toList_ofList]
  simp [hyphenate, length_hexDigits]

end Uuid

end LiveExpr
