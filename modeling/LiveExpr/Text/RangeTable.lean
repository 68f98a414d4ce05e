import LiveExpr.Text.Decimal

/-!
# Range tables

A finite map from code points to numbers, given by ascending disjoint ranges; its
written form, in which a property of the Unicode Character Database is stated as
lines of text; and look-up by bisection.
-/

namespace LiveExpr.Text

/-- A range of code points, both ends included, that share one value. -/
structure CodeRange where
  first : Nat
  last : Nat
  value : Nat
deriving Repr

/-- Ascending disjoint ranges of code points. -/
abbrev RangeTable := Array CodeRange

/-- The number written in upper-case hexadecimal digits. -/
def readHex (digits : List Char) : Nat :=
  digits.foldl
    (fun n c => 16 * n + (if c.isDigit then c.toNat - 48 else c.toNat - 55)) 0

/-- The words of a text, which single spaces separate. -/
def words (text : String) : List (List Char) :=
  text.toList.splitOn ' '

/-- The part of a word before the first `mark`, and the part after it if there is one. -/
def splitWord (mark : Char) (word : List Char) : List Char × Option (List Char) :=
  match word.dropWhile (· != mark) with
  | [] => (word, none)
  | _ :: rest => (word.takeWhile (· != mark), some rest)

namespace RangeTable

/-- The range that a word `A`, `A-B`, `A:v` or `A-B:v` states; a missing value is 0. -/
def readRange (word : List Char) : CodeRange :=
  let (range, value) := splitWord ':' word
  let (first, last) := splitWord '-' range
  { first := readHex first
    last := readHex (last.getD first)
    value := (value.map digitsValue).getD 0 }

/-- The table that lines of words state. -/
def ofLines (lines : List String) : RangeTable :=
  ((lines.flatMap words).map readRange).toArray

/-- The range of index at least `low` and below `high` that holds a code point. -/
def search (table : RangeTable) (code low high : Nat) : Option CodeRange :=
  if low < high then
    let middle := (low + high) / 2
    match table[middle]? with
    | none => none
    | some range =>
      if code < range.first then search table code low middle
      else if range.last < code then search table code (middle + 1) high
      else some range
  else none
termination_by high - low

/-- The value of the range that holds a character. -/
def find? (table : RangeTable) (c : Char) : Option Nat :=
  (table.search c.toNat 0 table.size).map CodeRange.value

/-- Whether a range holds a character. -/
def contains (table : RangeTable) (c : Char) : Bool :=
  (table.find? c).isSome

end RangeTable

end LiveExpr.Text
