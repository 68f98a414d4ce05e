import LiveExpr.Text.BreakClass

/-!
# Extended grapheme clusters

The division of a text into extended grapheme clusters, what a reader takes for one
character each.  Whether two neighbours belong together depends on their classes and on
a little of what stands before: how many regional indicators, whether a pictograph, and
whether a consonant that waits for its conjunct.
-/

namespace LiveExpr.Text

/-- The progress of an emoji sequence joined by U+200D. -/
inductive EmojiProgress where
  | none
  | pictograph
  | joined
deriving DecidableEq, Repr

/-- The progress of a conjunct of consonants joined by a linker. -/
inductive ConjunctProgress where
  | none
  | consonant
  | linked
deriving DecidableEq, Repr

/-- What the text read so far says about a border at its end. -/
structure BreakContext where
  previous : BreakClass
  oddIndicators : Bool
  emoji : EmojiProgress
  conjunct : ConjunctProgress
deriving DecidableEq, Repr

namespace BreakContext

/-- The progress of an emoji sequence after one more character. -/
def emojiAfter (before : EmojiProgress) (c : Char) (cls : BreakClass) : EmojiProgress :=
  match before, cls with
  | .pictograph, .extend => .pictograph
  | .pictograph, .joiner => .joined
  | _, _ => if isPictograph c then .pictograph else .none

/-- The progress of a conjunct after one more character. -/
def conjunctAfter (before : ConjunctProgress) (c : Char) (cls : BreakClass) :
    ConjunctProgress :=
  if isConjunctConsonant c then .consonant
  else if before = .none then .none
  else if isConjunctLinker c then .linked
  else if (cls = .extend ∧ c.toNat ≠ 0x200C) ∨ cls = .joiner then before
  else .none

/-- The context after the first character of a text. -/
def start (c : Char) : BreakContext :=
  let cls := breakClass c
  { previous := cls
    oddIndicators := cls == .regionalIndicator
    emoji := emojiAfter .none c cls
    conjunct := conjunctAfter .none c cls }

/-- The context after one more character. -/
def push (context : BreakContext) (c : Char) : BreakContext :=
  let cls := breakClass c
  { previous := cls
    oddIndicators := cls == .regionalIndicator && !context.oddIndicators
    emoji := emojiAfter context.emoji c cls
    conjunct := conjunctAfter context.conjunct c cls }

/-- Whether the next character continues the cluster. -/
def joins (context : BreakContext) (c : Char) : Bool :=
  match context.previous, breakClass c with
  | .carriageReturn, .lineFeed => true
  | .carriageReturn, _ | .lineFeed, _ | .control, _ => false
  | _, .carriageReturn | _, .lineFeed | _, .control => false
  | .leading, .leading | .leading, .vowel | .leading, .syllableOpen
  | .leading, .syllableClosed => true
  | .syllableOpen, .vowel | .syllableOpen, .trailing | .vowel, .vowel
  | .vowel, .trailing => true
  | .syllableClosed, .trailing | .trailing, .trailing => true
  | _, .extend | _, .joiner | _, .spacingMark => true
  | .prepend, _ => true
  | .regionalIndicator, .regionalIndicator => context.oddIndicators
  | _, _ =>
    context.conjunct == .linked && isConjunctConsonant c
      || context.emoji == .joined && isPictograph c

end BreakContext

/-- The clusters of a text, the one under way given by its characters, the latest
first. -/
def clustersFrom (context : BreakContext) (cluster : List Char) :
    List Char → List (List Char)
  | [] => [cluster.reverse]
  | c :: rest =>
    if context.joins c then clustersFrom (context.push c) (c :: cluster) rest
    else cluster.reverse :: clustersFrom (context.push c) [c] rest

/-- The extended grapheme clusters of a text. -/
def clusters : List Char → List (List Char)
  | [] => []
  | c :: rest => clustersFrom (.start c) [c] rest

/-- The number of extended grapheme clusters of a string. -/
def clusterCount (text : String) : Nat :=
  (clusters text.toList).length

end LiveExpr.Text
