import LiveExpr.CommandLine
import Mathlib.Data.List.Basic
import Mathlib.Tactic.Common

/-!
# Which arguments are a command

The grammar of the command line: one path among options in any order, where of options of one
kind the last counts.  The arguments are read as a command exactly if they follow the grammar,
and all others are a usage error.  Main statements: `parseEval_eq_ok_iff`,
`parseHash_eq_ok_iff` and `parseArgs_grammar`.
-/

namespace LiveExpr.CommandLine

theorem bind_eq_ok_iff {ε α β : Type} {x : Except ε α} {f : α → Except ε β} {b : β} :
  (x >>= f) = .ok b ↔ ∃ a, x = .ok a ∧ f a = .ok b
  := by
  cases x with
  | error e => simp [bind, Except.bind]
  | ok a => simp [bind, Except.bind]

/-- A statement that needs a result, and comes to `q` of whatever the result is, says that there
is a result and `q` holds of it. -/
theorem iff_exists_ok {ε α : Type} {x : Except ε α} {p : Prop} {q : α → Prop}
    (hneeds : p → ∃ a, x = .ok a) (hsame : ∀ a, x = .ok a → (p ↔ q a)) :
  p ↔ ∃ a, x = .ok a ∧ q a
  := by
  constructor
  · intro hp
    obtain ⟨a, ha⟩ := hneeds hp
    exact ⟨a, ha, (hsame a ha).mp hp⟩
  · rintro ⟨a, ha, hq⟩
    exact (hsame a ha).mpr hq

/-! ### Values of options -/

/-- An argument is an option of a name if it is the name with the value after it. -/
theorem optionValue?_eq_some_iff {name arg text : String} :
  optionValue? name arg = some text ↔ arg = name ++ text
  := by
  rw [optionValue?]
  split
  · next h =>
    obtain ⟨rest, hrest⟩ := List.isPrefixOf_iff_prefix.mp h
    obtain rfl : arg = name ++ String.ofList rest := by
      rw [← String.toList_inj, String.toList_append, String.toList_ofList, hrest]
    simp [eq_comm]
  · next h =>
    constructor
    · exact nofun
    · rintro rfl
      simp at h

/-- An argument that is no option of a name is not the name with a value after it. -/
theorem ne_append {name arg : String} (h : optionValue? name arg = none) (text : String) :
  arg ≠ name ++ text
  := by
  intro harg
  rw [optionValue?_eq_some_iff.mpr harg] at h
  cases h

/-- The name of a format. -/
def OutputFormat.name : OutputFormat → String
  | .endUser => "enduser"
  | .developer => "developer"
  | .json => "json"
  | .roundtrip => "roundtrip"

/-- A format is given by its name. -/
theorem OutputFormat.parse_eq_ok_iff {text : String} {format : OutputFormat} :
  parse text = .ok format ↔ text = format.name
  := by
  constructor
  · intro h
    unfold parse at h
    split at h
    all_goals cases h
    all_goals rfl
  · rintro rfl
    cases format <;> rfl

/-- A text after the plus sign that it may begin with. -/
def dropPlus : List Char → List Char
  | '+' :: rest => rest
  | text => text

/-- Digits may follow a plus sign. -/
theorem dropPlus_eq_iff {text digits : List Char} (h : ∀ c ∈ digits, Text.isDigit c = true) :
  dropPlus text = digits ↔ text = digits ∨ text = '+' :: digits
  := by
  unfold dropPlus
  constructor
  · intro heq
    split at heq
    · exact .inr (congrArg _ heq)
    · exact .inl heq
  · rintro (rfl | rfl)
    · split
      · exact absurd (h '+' List.mem_cons_self) (by decide)
      · rfl
    · rfl

/-- Whether a text states a number of 32 bits: in digits, after a plus sign or not. -/
def States (text : String) (n : UInt32) : Prop :=
  ∃ digits, (text.toList = digits ∨ text.toList = '+' :: digits) ∧ digits ≠ []
    ∧ (∀ c ∈ digits, Text.isDigit c = true) ∧ Text.digitsValue digits = n.toNat

theorem parseNumber?_eq_some_iff {text : String} {n : UInt32} :
  parseNumber? text = some n ↔ States text n
  := by
  have hparse : parseNumber? text =
      if dropPlus text.toList ≠ [] ∧ (dropPlus text.toList).all Text.isDigit
          ∧ Text.digitsValue (dropPlus text.toList) < UInt32.size then
        some (UInt32.ofNat (Text.digitsValue (dropPlus text.toList)))
      else none := rfl
  rw [hparse]
  constructor
  · intro h
    split at h
    · next hdigits =>
      obtain ⟨hne, hall, hsize⟩ := hdigits
      obtain rfl := Option.some.inj h
      have hall := List.all_eq_true.mp hall
      exact ⟨_, (dropPlus_eq_iff hall).mp rfl, hne, hall,
        (UInt32.toNat_ofNat_of_lt' hsize).symm⟩
    · cases h
  · rintro ⟨digits, htext, hne, hall, hvalue⟩
    rw [(dropPlus_eq_iff hall).mpr htext, hvalue,
      if_pos ⟨hne, List.all_eq_true.mpr hall, n.toNat_lt_size⟩, UInt32.ofNat_toNat]

/-- A version is given by its number if it is supported. -/
theorem parseVersion_eq_ok_iff {text : String} {version : UInt32} :
  parseVersion text = .ok version
    ↔ States text version ∧ version ∈ Hashable.supportedVersions
  := by
  rw [parseVersion, ← parseNumber?_eq_some_iff]
  split
  · next h => simp [h]
  · next other h =>
    rw [h, Option.some.injEq]
    split
    · next hmem =>
      constructor
      · rintro ⟨⟩
        exact ⟨rfl, hmem⟩
      · rintro ⟨rfl, -⟩
        rfl
    · next hmem =>
      constructor
      · exact nofun
      · rintro ⟨rfl, h⟩
        exact absurd h hmem

/-! ### What is given last -/

section

variable {α : Type} {Gives : String → α → Prop} {default value : α} {arg : String}
  {args : List String}

/-- Whether a value is what the last argument that gives one gives, or the default if none
does. -/
def IsLastGiven (Gives : String → α → Prop) (default : α) (args : List String) (value : α) :
    Prop :=
  (∃ before arg after, args = before ++ arg :: after ∧ Gives arg value
      ∧ ∀ later ∈ after, ∀ other, ¬ Gives later other)
    ∨ value = default ∧ ∀ arg ∈ args, ∀ other, ¬ Gives arg other

theorem isLastGiven_nil :
  IsLastGiven Gives default [] value ↔ value = default
  := by
  simp [IsLastGiven]

/-- The first argument counts if no other gives a value. -/
theorem isLastGiven_cons :
  IsLastGiven Gives default (arg :: args) value
    ↔ (∃ before later after, args = before ++ later :: after ∧ Gives later value
        ∧ ∀ later ∈ after, ∀ other, ¬ Gives later other)
      ∨ (Gives arg value ∨ value = default ∧ ∀ other, ¬ Gives arg other)
        ∧ ∀ later ∈ args, ∀ other, ¬ Gives later other
  := by
  rw [IsLastGiven, List.forall_mem_cons]
  constructor
  · rintro (⟨_ | ⟨first, before⟩, later, after, heq, hgives, hlast⟩ | ⟨hvalue, harg, hnone⟩)
    · obtain ⟨rfl, rfl⟩ := List.cons.inj heq
      exact .inr ⟨.inl hgives, hlast⟩
    · exact .inl ⟨before, later, after, (List.cons.inj heq).2, hgives, hlast⟩
    · exact .inr ⟨.inr ⟨hvalue, harg⟩, hnone⟩
  · rintro (⟨before, later, after, rfl, hgives, hlast⟩ | ⟨hgives | ⟨hvalue, harg⟩, hnone⟩)
    · exact .inl ⟨arg :: before, later, after, rfl, hgives, hlast⟩
    · exact .inl ⟨[], arg, args, rfl, hgives, hnone⟩
    · exact .inr ⟨hvalue, harg, hnone⟩

/-- An argument that gives nothing is passed over. -/
theorem isLastGiven_cons_of_not (h : ∀ other, ¬ Gives arg other) :
  IsLastGiven Gives default (arg :: args) value ↔ IsLastGiven Gives default args value
  := by
  rw [isLastGiven_cons, IsLastGiven]
  simp [h]

/-- What an argument gives is the default for those after it. -/
theorem isLastGiven_cons_of_gives {given : α} (h : ∀ other, Gives arg other ↔ other = given) :
  IsLastGiven Gives default (arg :: args) value ↔ IsLastGiven Gives given args value
  := by
  rw [isLastGiven_cons, IsLastGiven]
  simp [h]

end

/-! ### Paths -/

/-- Whether a path is the one argument that is no option, or was given before, and all other
arguments are options of the command. -/
structure IsPathAmong (IsOption : String → Prop) (before : Option String) (args : List String)
    (path : String) : Prop where
  single : before.toList ++ args.filter (fun arg => !looksLikeOption arg) = [path]
  known : ∀ arg ∈ args, looksLikeOption arg = true → IsOption arg

section

variable {IsOption : String → Prop} {before : Option String} {arg path : String}
  {args : List String}

theorem isPathAmong_nil :
  IsPathAmong IsOption before [] path ↔ before = some path
  := by
  constructor
  · intro h
    simpa using h.single
  · rintro rfl
    exact ⟨rfl, nofun⟩

/-- An option of the command is passed over. -/
theorem isPathAmong_cons_of_option (hoption : looksLikeOption arg = true)
    (hknown : IsOption arg) :
  IsPathAmong IsOption before (arg :: args) path ↔ IsPathAmong IsOption before args path
  := by
  have hfilter : (arg :: args).filter (fun arg => !looksLikeOption arg)
      = args.filter (fun arg => !looksLikeOption arg) :=
    List.filter_cons_of_neg (by simp [hoption])
  constructor
  · intro h
    exact ⟨hfilter ▸ h.single, (List.forall_mem_cons.mp h.known).2⟩
  · intro h
    exact ⟨hfilter ▸ h.single, List.forall_mem_cons.mpr ⟨fun _ => hknown, h.known⟩⟩

/-- An argument that is no option of the command is taken for the path, if it does not look
like an option and no path was given before. -/
theorem isPathAmong_cons_of_not (hunknown : ¬ IsOption arg) :
  IsPathAmong IsOption before (arg :: args) path
    ↔ ∃ taken, takePath before arg = .ok taken ∧ IsPathAmong IsOption taken args path
  := by
  rw [takePath]
  cases hoption : looksLikeOption arg with
  | true =>
    constructor
    · intro h
      exact absurd (h.known arg List.mem_cons_self hoption) hunknown
    · rintro ⟨_, ⟨⟩, -⟩
  | false =>
    have hfilter : (arg :: args).filter (fun arg => !looksLikeOption arg)
        = arg :: args.filter (fun arg => !looksLikeOption arg) :=
      List.filter_cons_of_pos (by simp [hoption])
    cases before with
    | some first =>
      constructor
      · intro h
        have hsingle := h.single
        simp [hfilter] at hsingle
      · rintro ⟨_, ⟨⟩, -⟩
    | none =>
      constructor
      · intro h
        exact ⟨some arg, rfl, hfilter.symm.trans h.single, (List.forall_mem_cons.mp h.known).2⟩
      · rintro ⟨_, ⟨⟩, h⟩
        refine ⟨hfilter ▸ h.single, List.forall_mem_cons.mpr ⟨?_, h.known⟩⟩
        exact fun h => absurd (hoption.symm.trans h) (by decide)

end

/-! ### Options -/

/-- Whether an argument gives a format. -/
def GivesFormat (arg : String) (format : OutputFormat) : Prop :=
  arg = "--format=" ++ format.name

/-- Whether an argument gives a hash version as an option of the given name. -/
def GivesVersion (name arg : String) (version : UInt32) : Prop :=
  ∃ text, arg = name ++ text ∧ States text version ∧ version ∈ Hashable.supportedVersions

/-- An argument gives a format if its text after the option does. -/
theorem givesFormat_append {text : String} {format : OutputFormat} :
  GivesFormat ("--format=" ++ text) format ↔ OutputFormat.parse text = .ok format
  := by
  rw [OutputFormat.parse_eq_ok_iff, GivesFormat, String.append_right_inj]

/-- An argument gives a version if its text after the option does. -/
theorem givesVersion_append {name text : String} {version : UInt32} :
  GivesVersion name (name ++ text) version ↔ parseVersion text = .ok version
  := by
  simp [parseVersion_eq_ok_iff, GivesVersion, String.append_right_inj]

/-- What is no option for a format gives none. -/
theorem not_givesFormat {arg : String} (h : optionValue? "--format=" arg = none)
    (format : OutputFormat) :
  ¬ GivesFormat arg format
  := ne_append h format.name

/-- What is no option for a version gives none. -/
theorem not_givesVersion {name arg : String} (h : optionValue? name arg = none)
    (version : UInt32) :
  ¬ GivesVersion name arg version
  := by
  rintro ⟨text, harg, -⟩
  exact ne_append h text harg

/-- A format that is given is the default for the arguments after it. -/
theorem isLastGiven_format {text : String} {default given value : OutputFormat}
    {args : List String} (h : OutputFormat.parse text = .ok given) :
  IsLastGiven GivesFormat default (("--format=" ++ text) :: args) value
    ↔ IsLastGiven GivesFormat given args value
  := by
  apply isLastGiven_cons_of_gives
  intro other
  rw [givesFormat_append, h, Except.ok.injEq, eq_comm]

/-- A version that is given is the default for the arguments after it. -/
theorem isLastGiven_version {name text : String} {default given value : UInt32}
    {args : List String} (h : parseVersion text = .ok given) :
  IsLastGiven (GivesVersion name) default ((name ++ text) :: args) value
    ↔ IsLastGiven (GivesVersion name) given args value
  := by
  apply isLastGiven_cons_of_gives
  intro other
  rw [givesVersion_append, h, Except.ok.injEq, eq_comm]

theorem looksLikeOption_append {name : String} (h : looksLikeOption name = true)
    (text : String) :
  looksLikeOption (name ++ text) = true
  := by
  simp only [looksLikeOption, decide_eq_true_eq] at h ⊢
  rw [String.toList_append, List.head?_append, h]
  rfl

/-! ### The command `eval` -/

/-- Whether an argument is an option of `eval`. -/
def IsEvalOption (arg : String) : Prop :=
  arg = "--preview" ∨ (∃ format, GivesFormat arg format)
    ∨ ∃ version, GivesVersion "--hash-version=" arg version

theorem not_givesVersion_format {text : String} (version : UInt32) :
  ¬ GivesVersion "--hash-version=" ("--format=" ++ text) version
  := not_givesVersion (by simp [optionValue?]) version

theorem not_givesFormat_version {text : String} (format : OutputFormat) :
  ¬ GivesFormat ("--hash-version=" ++ text) format
  := not_givesFormat (by simp [optionValue?]) format

/-- The option for the format names one. -/
theorem isEvalOption_format {text : String} :
  IsEvalOption ("--format=" ++ text) ↔ ∃ format, OutputFormat.parse text = .ok format
  := by
  have hpreview : "--format=" ++ text ≠ "--preview" := (ne_append rfl text).symm
  simp [IsEvalOption, hpreview, not_givesVersion_format, givesFormat_append]

/-- The option for the hash version states a supported one. -/
theorem isEvalOption_hashVersion {text : String} :
  IsEvalOption ("--hash-version=" ++ text) ↔ ∃ version, parseVersion text = .ok version
  := by
  have hpreview : "--hash-version=" ++ text ≠ "--preview" := (ne_append rfl text).symm
  simp [IsEvalOption, hpreview, not_givesFormat_version, givesVersion_append]

/-- Whether arguments complete what was given before them to the options of `eval`: the path, the
preview if it is asked for anywhere, and the format and the hash version that are given last. -/
@[mk_iff]
structure IsEvalLine (path : Option String) (options : EvalOptions) (args : List String)
    (result : EvalOptions) : Prop where
  path : IsPathAmong IsEvalOption path args result.path
  preview : result.preview = true ↔ options.preview = true ∨ "--preview" ∈ args
  format : IsLastGiven GivesFormat options.format args result.format
  hashVersion :
    IsLastGiven (GivesVersion "--hash-version=") options.hashVersion args result.hashVersion

section

variable {path : Option String} {options result : EvalOptions} {arg text : String}
  {args : List String}

/-- Without further arguments a path must have been given. -/
theorem isEvalLine_nil :
  IsEvalLine path options [] result
    ↔ ∃ given, path = some given ∧ { options with path := given } = result
  := by
  simp only [isEvalLine_iff, isPathAmong_nil, isLastGiven_nil, List.not_mem_nil, or_false,
    Bool.coe_iff_coe]
  constructor
  · rintro ⟨rfl, hpreview, hformat, hversion⟩
    exact ⟨_, rfl, by rw [← hpreview, ← hformat, ← hversion]⟩
  · rintro ⟨_, rfl, rfl⟩
    exact ⟨rfl, rfl, rfl, rfl⟩

/-- An option changes what was given before the arguments after it. -/
theorem isEvalLine_cons {next : EvalOptions} (hoption : looksLikeOption arg = true)
    (hknown : IsEvalOption arg)
    (hpreview : next.preview = true ↔ options.preview = true ∨ arg = "--preview")
    (hformat : ∀ format, IsLastGiven GivesFormat options.format (arg :: args) format
      ↔ IsLastGiven GivesFormat next.format args format)
    (hversion : ∀ version, IsLastGiven (GivesVersion "--hash-version=") options.hashVersion
        (arg :: args) version
      ↔ IsLastGiven (GivesVersion "--hash-version=") next.hashVersion args version) :
  IsEvalLine path options (arg :: args) result ↔ IsEvalLine path next args result
  := by
  rw [isEvalLine_iff, isEvalLine_iff, isPathAmong_cons_of_option hoption hknown, hformat,
    hversion, hpreview, List.mem_cons, or_assoc, @eq_comm _ arg]

/-- A flag asks for a preview, whatever stands around it. -/
theorem isEvalLine_preview :
  IsEvalLine path options ("--preview" :: args) result
    ↔ IsEvalLine path { options with preview := true } args result
  := by
  apply isEvalLine_cons (by decide) (.inl rfl)
  · simp
  · exact fun _ => isLastGiven_cons_of_not (not_givesFormat rfl)
  · exact fun _ => isLastGiven_cons_of_not (not_givesVersion rfl)

/-- A format holds until another is given. -/
theorem isEvalLine_format :
  IsEvalLine path options (("--format=" ++ text) :: args) result
    ↔ ∃ format, OutputFormat.parse text = .ok format
      ∧ IsEvalLine path { options with format } args result
  := by
  have hoption := @looksLikeOption_append "--format=" (by decide) text
  have hpreview : "--format=" ++ text ≠ "--preview" := (ne_append rfl text).symm
  apply iff_exists_ok
  · intro h
    exact isEvalOption_format.mp (h.path.known _ List.mem_cons_self hoption)
  · intro format hformat
    apply isEvalLine_cons hoption (isEvalOption_format.mpr ⟨format, hformat⟩)
    · simp [hpreview]
    · exact fun _ => isLastGiven_format hformat
    · exact fun _ => isLastGiven_cons_of_not not_givesVersion_format

/-- A version of the hash holds until another is given. -/
theorem isEvalLine_hashVersion :
  IsEvalLine path options (("--hash-version=" ++ text) :: args) result
    ↔ ∃ hashVersion, parseVersion text = .ok hashVersion
      ∧ IsEvalLine path { options with hashVersion } args result
  := by
  have hoption := @looksLikeOption_append "--hash-version=" (by decide) text
  have hpreview : "--hash-version=" ++ text ≠ "--preview" := (ne_append rfl text).symm
  apply iff_exists_ok
  · intro h
    exact isEvalOption_hashVersion.mp (h.path.known _ List.mem_cons_self hoption)
  · intro hashVersion hversion
    apply isEvalLine_cons hoption (isEvalOption_hashVersion.mpr ⟨hashVersion, hversion⟩)
    · simp [hpreview]
    · exact fun _ => isLastGiven_cons_of_not not_givesFormat_version
    · exact fun _ => isLastGiven_version hversion

/-- Any other argument has to be the path. -/
theorem isEvalLine_other (hpreview : arg ≠ "--preview")
    (hformat : optionValue? "--format=" arg = none)
    (hversion : optionValue? "--hash-version=" arg = none) :
  IsEvalLine path options (arg :: args) result
    ↔ ∃ taken, takePath path arg = .ok taken ∧ IsEvalLine taken options args result
  := by
  have hunknown : ¬ IsEvalOption arg := by
    rintro (hp | ⟨format, hf⟩ | ⟨version, hv⟩)
    · exact hpreview hp
    · exact not_givesFormat hformat format hf
    · exact not_givesVersion hversion version hv
  have hmem : "--preview" ∈ arg :: args ↔ "--preview" ∈ args := by simp [hpreview.symm]
  simp only [isEvalLine_iff, isPathAmong_cons_of_not hunknown, hmem,
    isLastGiven_cons_of_not (not_givesFormat hformat),
    isLastGiven_cons_of_not (not_givesVersion hversion)]
  constructor
  · rintro ⟨⟨taken, htaken, hpath⟩, hrest⟩
    exact ⟨taken, htaken, hpath, hrest⟩
  · rintro ⟨taken, htaken, hpath, hrest⟩
    exact ⟨⟨taken, htaken, hpath⟩, hrest⟩

end

/-- The arguments of `eval` are read exactly if they follow its grammar. -/
theorem parseEval_eq_ok_iff {path : Option String} {options : EvalOptions}
    {args : List String} {result : EvalOptions} :
  parseEval path options args = .ok result ↔ IsEvalLine path options args result
  := by
  fun_induction parseEval path options args with
  | case1 options given => simp [isEvalLine_nil]
  | case2 options => simp [isEvalLine_nil]
  | case3 path options rest ih => rw [isEvalLine_preview, ih]
  | case4 path options arg rest _ text htext ih =>
    obtain rfl := optionValue?_eq_some_iff.mp htext
    simp only [bind_eq_ok_iff, isEvalLine_format, ih]
  | case5 path options arg rest _ _ text htext ih =>
    obtain rfl := optionValue?_eq_some_iff.mp htext
    simp only [bind_eq_ok_iff, isEvalLine_hashVersion, ih]
  | case6 path options arg rest hpreview hformat hversion ih =>
    simp only [bind_eq_ok_iff, isEvalLine_other hpreview hformat hversion, ih]

/-! ### The command `hash` -/

/-- Whether an argument is an option of `hash`. -/
def IsHashOption (arg : String) : Prop :=
  ∃ version, GivesVersion "--version=" arg version

/-- Whether arguments complete what was given before them to the options of `hash`: the path, and
the version that is given last. -/
@[mk_iff]
structure IsHashLine (path : Option String) (version : UInt32) (args : List String)
    (result : HashOptions) : Prop where
  path : IsPathAmong IsHashOption path args result.path
  version : IsLastGiven (GivesVersion "--version=") version args result.version

section

variable {path : Option String} {version : UInt32} {result : HashOptions}
  {arg text : String} {args : List String}

/-- Without further arguments a path must have been given. -/
theorem isHashLine_nil :
  IsHashLine path version [] result ↔ ∃ given, path = some given ∧ ⟨given, version⟩ = result
  := by
  rw [isHashLine_iff, isPathAmong_nil, isLastGiven_nil]
  constructor
  · rintro ⟨rfl, hversion⟩
    exact ⟨_, rfl, by rw [← hversion]⟩
  · rintro ⟨_, rfl, rfl⟩
    exact ⟨rfl, rfl⟩

/-- A version holds until another is given. -/
theorem isHashLine_version :
  IsHashLine path version (("--version=" ++ text) :: args) result
    ↔ ∃ given, parseVersion text = .ok given ∧ IsHashLine path given args result
  := by
  have hoption := @looksLikeOption_append "--version=" (by decide) text
  apply iff_exists_ok
  · intro h
    obtain ⟨given, hgiven⟩ := h.path.known _ List.mem_cons_self hoption
    exact ⟨given, givesVersion_append.mp hgiven⟩
  · intro given hgiven
    rw [isHashLine_iff, isHashLine_iff, isLastGiven_version hgiven,
      isPathAmong_cons_of_option hoption ⟨given, givesVersion_append.mpr hgiven⟩]

/-- Any other argument has to be the path. -/
theorem isHashLine_other (hversion : optionValue? "--version=" arg = none) :
  IsHashLine path version (arg :: args) result
    ↔ ∃ taken, takePath path arg = .ok taken ∧ IsHashLine taken version args result
  := by
  have hunknown : ¬ IsHashOption arg := fun ⟨given, h⟩ => not_givesVersion hversion given h
  simp only [isHashLine_iff, isPathAmong_cons_of_not hunknown,
    isLastGiven_cons_of_not (not_givesVersion hversion)]
  constructor
  · rintro ⟨⟨taken, htaken, hpath⟩, hrest⟩
    exact ⟨taken, htaken, hpath, hrest⟩
  · rintro ⟨taken, htaken, hpath, hrest⟩
    exact ⟨⟨taken, htaken, hpath⟩, hrest⟩

end

/-- The arguments of `hash` are read exactly if they follow its grammar. -/
theorem parseHash_eq_ok_iff {path : Option String} {version : UInt32} {args : List String}
    {result : HashOptions} :
  parseHash path version args = .ok result ↔ IsHashLine path version args result
  := by
  fun_induction parseHash path version args with
  | case1 version given => simp [isHashLine_nil]
  | case2 version => simp [isHashLine_nil]
  | case3 path version arg rest text htext ih =>
    obtain rfl := optionValue?_eq_some_iff.mp htext
    simp only [bind_eq_ok_iff, isHashLine_version, ih]
  | case4 path version arg rest hversion ih =>
    simp only [bind_eq_ok_iff, isHashLine_other hversion, ih]

/-! ### Commands -/

/-- The grammar of the command line: whether arguments, of which the first is the program's
name, are a command. -/
inductive IsCommand : List String → Command → Prop where
  | eval (program : String) {args : List String} {options : EvalOptions}
      (h : IsEvalLine none .default args options) :
    IsCommand (program :: "eval" :: args) (.eval options)
  | hash (program : String) {args : List String} {options : HashOptions}
      (h : IsHashLine none Hashable.currentVersion args options) :
    IsCommand (program :: "hash" :: args) (.hash options)
  | help (program : String) {name : String} (h : name ∈ ["help", "--help", "-h"])
      (args : List String) :
    IsCommand (program :: name :: args) .help

/-- Arguments that are accepted follow the grammar. -/
theorem isCommand_of_parseArgs {args : List String} {command : Command}
    (h : parseArgs args = .ok command) :
  IsCommand args command
  := by
  revert h
  fun_cases parseArgs args with
  | case1 => exact nofun
  | case2 => exact nofun
  | case3 program args =>
    cases hargs : parseEval none .default args with
    | error e => exact nofun
    | ok options =>
      rintro ⟨⟩
      exact .eval program (parseEval_eq_ok_iff.mp hargs)
  | case4 program args =>
    cases hargs : parseHash none Hashable.currentVersion args with
    | error e => exact nofun
    | ok options =>
      rintro ⟨⟩
      exact .hash program (parseHash_eq_ok_iff.mp hargs)
  | case5 program args | case6 program args | case7 program args =>
    rintro ⟨⟩
    exact .help program (by decide) args
  | case8 => exact nofun

/-- Arguments that follow the grammar are accepted. -/
theorem parseArgs_of_isCommand {args : List String} {command : Command}
    (h : IsCommand args command) :
  parseArgs args = .ok command
  := by
  cases h with
  | eval program h => rw [parseArgs, parseEval_eq_ok_iff.mpr h]; rfl
  | hash program h => rw [parseArgs, parseHash_eq_ok_iff.mpr h]; rfl
  | help program h args =>
    simp only [List.mem_cons, List.not_mem_nil, or_false] at h
    rcases h with rfl | rfl | rfl <;> rfl

/-- Arguments are read as a command exactly if they are that command by the grammar, and are a
usage error exactly if they are no command. -/
theorem parseArgs_grammar (args : List String) :
  (∀ command, parseArgs args = .ok command ↔ IsCommand args command)
    ∧ ((∃ e, parseArgs args = .error e) ↔ ∀ command, ¬ IsCommand args command)
  := by
  have haccepts (command : Command) : parseArgs args = .ok command ↔ IsCommand args command :=
    ⟨isCommand_of_parseArgs, parseArgs_of_isCommand⟩
  refine ⟨haccepts, ?_⟩
  simp only [← haccepts]
  cases parseArgs args with
  | error e => simp
  | ok command => simp

/-- Of options of one kind the last counts, before the path or after it. -/
example :
  parseArgs ["darkc", "eval", "--format=json", "--preview", "p.json", "--hash-version=+00",
      "--format=developer"]
    = .ok (.eval ⟨"p.json", true, .developer, 0⟩)
  := by decide

end LiveExpr.CommandLine
