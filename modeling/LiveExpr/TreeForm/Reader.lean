import LiveExpr.Json.Raw
import LiveExpr.Number.Scaled

/-!
# Reading trees

The shapes in which JSON holds a tree.  A choice between kinds is a string that names the
kind, or an object whose one member names it and holds its parts; a structure is an
object of its fields, or an array of them in order.
-/

namespace LiveExpr.RawJson

/-- A string that is a text. -/
def text? : RawJson → Option String
  | .string s => s
  | _ => none

/-- A truth value. -/
def bool? : RawJson → Option Bool
  | .bool b => some b
  | _ => none

/-- A natural number below a bound, written without sign, fraction and exponent. -/
def natBelow? (bound : Nat) : RawJson → Option Nat
  | .number n =>
    if n.isInteger ∧ ¬ n.negative ∧ n.whole < bound then some n.whole else none
  | _ => none

/-- An identifier. -/
def id? (j : RawJson) : Option UInt64 :=
  (j.natBelow? UInt64.size).map UInt64.ofNat

/-- A version. -/
def version? (j : RawJson) : Option UInt32 :=
  (j.natBelow? UInt32.size).map UInt32.ofNat

/-- A binary number.  Here numbers are read by scaling, which may miss the nearest one. -/
def float? : RawJson → Option Binary64
  | .number n => n.scaled?
  | _ => none

/-- The digits of an integer's text: the first is a digit, and underscores after it are
skipped. -/
def integerDigits? (text : List Char) : Option Nat :=
  match text with
  | '_' :: _ | [] => none
  | _ =>
    (text.filter (· ≠ '_')).foldlM
      (fun n c => (Digit.ofChar? c).map fun d => 10 * n + d.val) 0

/-- The integer that a text states: an optional sign, and digits. -/
def readInteger? (text : String) : Option Int :=
  match text.toList with
  | '-' :: rest => (integerDigits? rest).map fun n => -(n : Int)
  | '+' :: rest => (integerDigits? rest).map Int.ofNat
  | rest => (integerDigits? rest).map Int.ofNat

/-- An integer, held as a string. -/
def integer? (j : RawJson) : Option Int :=
  j.text?.bind readInteger?

/-- The kind that a choice names, and the parts that it holds. -/
def choice? : RawJson → Option (String × Option RawJson)
  | .string (some tag) => some (tag, none)
  | .object [(some tag, parts)] => some (tag, some parts)
  | _ => none

/-- The member of a name; two members of the name are a fault. -/
def member? (name : String) (members : List (Option String × RawJson)) :
    Option (Option RawJson) :=
  match members.filter (·.1 == some name) with
  | [] => some none
  | [(_, value)] => some (some value)
  | _ => none

/-- The fields of a structure, in the order of their names: from an object, in which
other members are ignored, or from an array, whose end may be missing. -/
def fields? (names : List String) : RawJson → Option (List (Option RawJson))
  | .object members =>
    if members.all (·.1.isSome) then names.mapM fun name => member? name members else none
  | .array items =>
    if items.length ≤ names.length then
      some (items.map some ++ List.replicate (names.length - items.length) none)
    else none
  | _ => none

/-- The items of an array, each read by a reader of what nests inside it. -/
def list? {α : Type} (read : Nat → RawJson → Option α) (depth : Nat) (j : RawJson) :
    Option (List α) :=
  match depth, j with
  | depth + 1, .array items => items.mapM (read depth)
  | _, _ => none

/-- A field that may be missing, with the value that it then has. -/
def orElse {α : Type} (value : α) (read : RawJson → Option α) : Option RawJson → Option α
  | none => some value
  | some j => read j

end LiveExpr.RawJson
