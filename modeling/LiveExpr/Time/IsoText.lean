import LiveExpr.Text.Decimal
import LiveExpr.Time.Timestamp

/-!
# ISO 8601 text

The written form `2020-01-02T03:04:05Z` of a moment, and the two grammars in which a
moment is read: that form with short fields, blanks before a number and signed years, and
the strict form of the internet with a fraction and an offset from universal time.
-/

namespace LiveExpr

namespace Timestamp

open Text (isDigit digitsValue padNumber)

/-! ### Writing -/

/-- A year of at least four digits: a sign precedes a negative year and one of more than
four digits. -/
def yearChars (year : Int) : List Char :=
  if year < 0 then '-' :: padNumber 4 year.natAbs
  else if 9999 < year then '+' :: padNumber 4 year.natAbs
  else padNumber 4 year.natAbs

/-- The characters of a moment, to the second. -/
def isoChars (t : Timestamp) : List Char :=
  let d := t.day
  let c := t.clock
  yearChars d.year ++ '-' :: padNumber 2 d.month.toNat ++ '-' :: padNumber 2 d.day.toNat
    ++ 'T' :: padNumber 2 c.hour.toNat ++ ':' :: padNumber 2 c.minute.toNat
    ++ ':' :: padNumber 2 c.second.toNat ++ ['Z']

/-- The text of a moment, to the second. -/
def toIso (t : Timestamp) : String :=
  String.ofList t.isoChars

/-! ### Reading -/

/-- Whether a character is white space in the sense of the Unicode property. -/
def isBlank (c : Char) : Bool :=
  let code := c.toNat
  9 ≤ code ∧ code ≤ 13 ∨ code = 0x20 ∨ code = 0x85 ∨ code = 0xA0 ∨ code = 0x1680
    ∨ 0x2000 ≤ code ∧ code ≤ 0x200A ∨ code = 0x2028 ∨ code = 0x2029 ∨ code = 0x202F
    ∨ code = 0x205F ∨ code = 0x3000

/-- Reads a number of one digit up to `most`. -/
def readUpTo? (most : Nat) (text : List Char) : Option (Int × List Char) :=
  let digits := (text.take most).takeWhile isDigit
  if digits.isEmpty then none
  else some (digitsValue digits, text.drop digits.length)

/-- Reads a number of exactly `count` digits. -/
def readExactly? (count : Nat) (text : List Char) : Option (Int × List Char) :=
  let digits := text.take count
  if digits.length = count ∧ digits.all isDigit then
    some (digitsValue digits, text.drop count)
  else none

/-- Reads a given character. -/
def readMark? (mark : Char) (text : List Char) : Option (List Char) :=
  match text with
  | c :: rest => if c = mark then some rest else none
  | [] => none

/-- Reads a year: up to four digits, or a sign and any number of digits. -/
def readYear? (text : List Char) : Option (Int × List Char) :=
  match text.dropWhile isBlank with
  | '-' :: rest => (readUpTo? rest.length rest).map fun (n, rest) => (-n, rest)
  | '+' :: rest => readUpTo? rest.length rest
  | text => readUpTo? 4 text

/-- Reads a field of one or two digits after a given mark and any blanks. -/
def readField? (mark : Char) (text : List Char) : Option (Int × List Char) := do
  let text ← readMark? mark text
  readUpTo? 2 (text.dropWhile isBlank)

/-- The moment of valid parts. -/
def ofParts? (d : CalendarDay) (c : ClockTime) : Option Timestamp :=
  if d.isValid ∧ c.hour ≤ 23 ∧ c.minute ≤ 59 ∧ c.second ≤ 60 then some (ofParts d c)
  else none

/-- Reads the written form, with short fields, blanks before a number and signed
years. -/
def readLoose? (text : List Char) : Option Timestamp := do
  let (year, text) ← readYear? text
  let (month, text) ← readField? '-' text
  let (day, text) ← readField? '-' text
  let (hour, text) ← readField? 'T' text
  let (minute, text) ← readField? ':' text
  let (second, text) ← readField? ':' text
  if text = ['Z'] then ofParts? ⟨year, month, day⟩ ⟨hour, minute, second⟩ else none

/-- Reads a fraction of a second, which is dropped. -/
def readFraction? (text : List Char) : Option (List Char) :=
  match text with
  | '.' :: rest =>
    if rest.takeWhile isDigit = [] then none else some (rest.dropWhile isDigit)
  | _ => some text

/-- Reads an offset from universal time, in seconds, up to the end of the text. -/
def readOffset? (text : List Char) : Option Int :=
  match text with
  | [] => none
  | sign :: rest =>
    if sign = 'Z' ∨ sign = 'z' then if rest.isEmpty then some 0 else none
    else if sign = '+' ∨ sign = '-' ∨ sign.toNat = 0x2212 then do
      let (hours, rest) ← readExactly? 2 rest
      let rest ← readMark? ':' rest
      let (minutes, rest) ← readExactly? 2 rest
      if rest.isEmpty ∧ hours ≤ 23 ∧ minutes ≤ 59 then
        let offset := hours * 3600 + minutes * 60
        some (if sign = '+' then offset else -offset)
      else none
    else none

/-- Reads the strict form, with a fraction and an offset. -/
def readStrict? (text : List Char) : Option Timestamp := do
  let (year, text) ← readExactly? 4 text
  let text ← readMark? '-' text
  let (month, text) ← readExactly? 2 text
  let text ← readMark? '-' text
  let (day, text) ← readExactly? 2 text
  let text ← (readMark? 'T' text <|> readMark? 't' text <|> readMark? ' ' text)
  let (hour, text) ← readExactly? 2 text
  let text ← readMark? ':' text
  let (minute, text) ← readExactly? 2 text
  let text ← readMark? ':' text
  let (second, text) ← readExactly? 2 text
  let text ← readFraction? text
  let offset ← readOffset? text
  let t ← ofParts? ⟨year, month, day⟩ ⟨hour, minute, second⟩
  some { t with seconds := t.seconds - offset }

/-- The moment that a text states, to the second. -/
def ofIso? (text : String) : Option Timestamp :=
  readLoose? text.toList <|> readStrict? text.toList

end Timestamp

end LiveExpr
