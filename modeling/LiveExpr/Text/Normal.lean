import LiveExpr.Text.Decomposition

/-!
# Normalization Form C

Canonical decomposition, canonical ordering of combining marks, canonical composition,
and the form `nfc` of a text that the three give.
-/

namespace LiveExpr.Text

/-! ### Hangul syllables -/

/-- The leading consonant, vowel and trailing consonant of a Hangul syllable. -/
def syllableParts? (c : Char) : Option (List Char) :=
  let code := c.toNat
  if 0xAC00 ≤ code ∧ code ≤ 0xD7A3 then
    let index := code - 0xAC00
    let leading := Char.ofNat (0x1100 + index / 588)
    let vowel := Char.ofNat (0x1161 + index % 588 / 28)
    if index % 28 = 0 then some [leading, vowel]
    else some [leading, vowel, Char.ofNat (0x11A7 + index % 28)]
  else none

/-- The Hangul syllable of a leading consonant and a vowel, or of an open syllable and
a trailing consonant. -/
def syllable? (a b : Char) : Option Char :=
  let x := a.toNat
  let y := b.toNat
  if 0x1100 ≤ x ∧ x ≤ 0x1112 ∧ 0x1161 ≤ y ∧ y ≤ 0x1175 then
    some (Char.ofNat (0xAC00 + ((x - 0x1100) * 21 + (y - 0x1161)) * 28))
  else if 0xAC00 ≤ x ∧ x ≤ 0xD7A3 ∧ (x - 0xAC00) % 28 = 0 ∧ 0x11A8 ≤ y ∧ y ≤ 0x11C2 then
    some (Char.ofNat (x + (y - 0x11A7)))
  else none

/-! ### Decomposition -/

/-- The decomposition of a character, its parts decomposed `depth` more times, where
`step?` gives one step of the decomposition of a character. -/
def decomposeChar (step? : Char → Option Decomposition) : Nat → Char → List Char
  | 0, c => [c]
  | depth + 1, c =>
    match syllableParts? c with
    | some parts => parts
    | none =>
      match step? c with
      | none => [c]
      | some d =>
        decomposeChar step? depth d.first
          ++ (match d.second with
            | some second => decomposeChar step? depth second
            | none => [])

/-- Puts a character in front of an ordered text, behind the marks of lower class that
the text begins with. -/
def insertMark (c : Char) : List Char → List Char
  | [] => [c]
  | d :: rest =>
    if 0 < combiningClass d ∧ combiningClass d < combiningClass c then
      d :: insertMark c rest
    else c :: d :: rest

/-- The canonical decomposition of a character.  No chain of decompositions is longer than
four. -/
def decomposed (c : Char) : List Char :=
  decomposeChar decomposition? 4 c

/-- Puts the combining marks of a text in canonical order. -/
def order (text : List Char) : List Char :=
  text.foldr insertMark []

/-- The canonical decomposition of a text, its combining marks in canonical order. -/
def decompose (text : List Char) : List Char :=
  order (text.flatMap decomposed)

/-! ### Composition -/

/-- The primary composite of two characters. -/
def composePair? (a b : Char) : Option Char :=
  (syllable? a b).orElse fun _ => compositionTable[(a.toNat, b.toNat)]?

/-- Composes what follows a starter: `skipped` are the marks since then that did not
compose, the latest first, and `latest` is the class of the latest. -/
def composeAfter (starter : Char) (skipped : List Char) (latest : Nat) :
    List Char → List Char
  | [] => starter :: skipped.reverse
  | c :: rest =>
    let composite := if skipped.isEmpty || latest < combiningClass c
      then composePair? starter c else none
    match composite with
    | some d => composeAfter d skipped latest rest
    | none =>
      if combiningClass c = 0 then
        starter :: (skipped.reverse ++ composeAfter c [] 0 rest)
      else composeAfter starter (c :: skipped) (combiningClass c) rest

/-- The canonical composition of a decomposed text. -/
def compose : List Char → List Char
  | [] => []
  | c :: rest =>
    if combiningClass c = 0 then composeAfter c [] 0 rest else c :: compose rest

/-! ### The normal form -/

/-- Whether a text holds only characters below U+0300, of which none composes with another. -/
def isPlain (text : List Char) : Bool :=
  text.all fun c => c.toNat < 0x300

/-- Normalization Form C. -/
def nfcChars (text : List Char) : List Char :=
  if isPlain text then text else compose (decompose text)

/-- Normalization Form C of a string. -/
def nfc (text : String) : String :=
  String.ofList (nfcChars text.toList)

end LiveExpr.Text
