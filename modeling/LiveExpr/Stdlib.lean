import LiveExpr.Eval.Function

/-!
# The standard library

The built-ins that every program can call.  All are without effects, but for `Date::now`,
which reads the clock.  Main statements: `cases_of_mem`, the four ways in which
they work, and `run_eq_of_pure`, what a pure one depends on.
-/

namespace LiveExpr.Stdlib

/-- A dictionary of any values. -/
def anyDict : Ty := .dict .any

/-! ### Operators -/

/-- The sum of two integers. -/
def add : List Value → Except BuiltinError Value
  | [.int a, .int b] => .ok (.int (a + b))
  | _ => .error .wrongArguments

/-- The difference of two integers. -/
def subtract : List Value → Except BuiltinError Value
  | [.int a, .int b] => .ok (.int (a - b))
  | _ => .error .wrongArguments

/-- Whether two values are equal. -/
def equals (sharing : Sharing) : List Value → Except BuiltinError Value
  | [a, b] => .ok (.bool (a.equals sharing b))
  | _ => .error .wrongArguments

def operators : List Function :=
  [ .ofArguments (.stdlib "" "+" 0) [("a", .int), ("b", .int)] .int
      "Adds two integers together" add,
    .ofArguments (.stdlib "" "-" 0) [("a", .int), ("b", .int)] .int
      "Subtracts `b` from `a`" subtract,
    .ofMemory (.stdlib "" "==" 0) [("a", .any), ("b", .any)] .bool
      "Returns true if the two values are equal" equals ]

def integers : List Function :=
  [ .ofArguments (.stdlib "Int" "add" 0) [("a", .int), ("b", .int)] .int
      "Adds two integers together" add ]

/-! ### Texts -/

/-- One text after another, in normal form again. -/
def append : List Value → Except BuiltinError Value
  | [.str a, .str b] => .ok (.ofText (a ++ b))
  | _ => .error .wrongArguments

/-- The number of grapheme clusters of a text. -/
def textLength : List Value → Except BuiltinError Value
  | [.str text] => .ok (.int (Text.clusterCount text))
  | _ => .error .wrongArguments

def texts : List Function :=
  [ .ofArguments (.stdlib "String" "append" 0) [("s1", .str), ("s2", .str)] .str
      "Concatenates two strings" append,
    .ofArguments (.stdlib "String" "length" 0) [("s", .str)] .int
      "Returns the number of characters in the string" textLength ]

/-! ### Lists -/

/-- Applies a function to one item after the other; `results` are those so far, the
latest first. -/
def mapItems (f : Callable) (results : List Value) : List Value → BuiltinStep
  | [] => .finish (.ok (.ofItems results.reverse))
  | item :: rest =>
    .apply f [item] .notInPipe .noRail fun result => mapItems f (result :: results) rest

/-- The list of the results of a function for the items of a list. -/
def mapList (args : List Value) : BuiltinStep :=
  match args with
  | [.list items, f] =>
    match f.callable? with
    | some f => mapItems f [] items
    | none => .finish (.error .wrongArguments)
  | _ => .finish (.error .wrongArguments)

/-- The number of items of a list. -/
def listLength : List Value → Except BuiltinError Value
  | [.list items] => .ok (.int items.length)
  | _ => .error .wrongArguments

def lists : List Function :=
  [ { name := .stdlib "List" "map" 0
      parameters := [⟨"list", .list .any, ""⟩, ⟨"f", .function [.any] .any, ""⟩]
      returnType := .list .any
      description := "Calls `f` on every value in `list`, returning a list of the results"
      previewability := .pure
      deprecation := .current
      implementation := .builtin ⟨fun _ args => mapList args, false⟩ },
    .ofArguments (.stdlib "List" "length" 0) [("list", .list .any)] .int
      "Returns the number of values in `list`" listLength ]

/-! ### Dictionaries -/

/-- The value of a key, or null. -/
def getOrNull : List Value → Except BuiltinError Value
  | [.record fields, .str key] => .ok ((Fields.get? key fields).getD .null)
  | _ => .error .wrongArguments

/-- The value of a key, as an option. -/
def getOption : List Value → Except BuiltinError Value
  | [.record fields, .str key] => .ok (.ofOption (Fields.get? key fields))
  | _ => .error .wrongArguments

/-- The dictionary with another value of a key. -/
def setKey : List Value → Except BuiltinError Value
  | [.record fields, .str key, value] => .ok (.record (Fields.insert key value fields))
  | _ => .error .wrongArguments

def dictionaries : List Function :=
  [ { Function.ofArguments (.stdlib "Dict" "get" 0) [("dict", anyDict), ("key", .str)] .any
        "Looks up `key` in `dict`, returning null if it is missing" getOrNull with
      deprecation := .replacedBy (.stdlib "Dict" "get" 2) },
    .ofArguments (.stdlib "Dict" "get" 2) [("dict", anyDict), ("key", .str)] (.option .any)
      "If `dict` contains `key`, returns `Just` its value, otherwise `Nothing`" getOption,
    .ofArguments (.stdlib "Dict" "set" 0) [("dict", anyDict), ("key", .str), ("val", .any)]
      anyDict "Returns a copy of `dict` with `key` set to `val`" setKey ]

/-! ### Options and results -/

/-- The payload of an option, or a default. -/
def optionOr : List Value → Except BuiltinError Value
  | [.just value, _] => .ok value
  | [.nothing, default] => .ok default
  | _ => .error .wrongArguments

/-- The payload of a successful result, or a default. -/
def resultOr : List Value → Except BuiltinError Value
  | [.ok value, _] => .ok value
  | [.error _, default] => .ok default
  | _ => .error .wrongArguments

def options : List Function :=
  [ .ofArguments (.stdlib "Option" "withDefault" 0)
      [("option", .option .any), ("default", .any)] .any
      "If `option` is `Just value`, returns `value`, otherwise `default`" optionOr ]

def results : List Function :=
  [ .ofArguments (.stdlib "Result" "withDefault" 0)
      [("result", .result .any .any), ("default", .any)] .any
      "If `result` is `Ok value`, returns `value`, otherwise `default`" resultOr ]

/-! ### Dates -/

/-- The time by the clock. -/
def now (known : BuiltinContext) : List Value → BuiltinStep
  | _ => .finish (.ok (.ofMoment known.now))

def dates : List Function :=
  [ { name := .stdlib "Date" "now" 0
      parameters := []
      returnType := .date
      description := "Returns the current time"
      previewability := .repeatable
      deprecation := .current
      implementation := .builtin ⟨now, false⟩ } ]

/-! ### Contents -/

/-- Every function of the standard library. -/
def contents : List Function :=
  operators ++ integers ++ texts ++ lists ++ dictionaries ++ options ++ results ++ dates

/-- What the built-ins do with their arguments that only look at them as values. -/
def inspections : List (List Value → Except BuiltinError Value) :=
  [add, subtract, append, textLength, listLength, getOrNull, getOption, setKey, optionOr,
    resultOr]

/-- A function of the standard library only looks at its arguments as values, compares
them, applies a function value to the items of a list, or reads the clock. -/
theorem cases_of_mem {f : Function} (hf : f ∈ contents) :
  (∃ run ∈ inspections, f.previewability = .pure
      ∧ f.implementation = .builtin ⟨fun _ args => .finish (run args), false⟩)
    ∨ (f.name = .stdlib "" "==" 0
      ∧ f.implementation
        = .builtin ⟨fun known args => .finish (equals known.sharing args), false⟩)
    ∨ (f.name = .stdlib "List" "map" 0
      ∧ f.implementation = .builtin ⟨fun _ args => mapList args, false⟩)
    ∨ (f.previewability = .repeatable ∧ f.implementation = .builtin ⟨now, false⟩)
  := by
  simp only [contents, operators, integers, texts, lists, dictionaries, options, results,
    dates, List.mem_append, List.mem_cons, List.not_mem_nil, or_false] at hf
  rcases hf with (((((((rfl | rfl | rfl) | rfl) | rfl | rfl) | rfl | rfl) | rfl | rfl | rfl)
    | rfl) | rfl) | rfl
  case inr => exact .inr (.inr (.inr ⟨rfl, rfl⟩))
  case inl.inl.inl.inl.inr.inl => exact .inr (.inr (.inl ⟨rfl, rfl⟩))
  case inl.inl.inl.inl.inl.inl.inl.inr.inr => exact .inr (.inl ⟨rfl, rfl⟩)
  all_goals exact .inl ⟨_, by simp [inspections], rfl, rfl⟩

theorem exists_builtin_of_mem {f : Function} (hf : f ∈ contents) :
  ∃ b, f.implementation = .builtin b
  := by
  rcases cases_of_mem hf with ⟨_, -, -, hb⟩ | ⟨-, hb⟩ | ⟨-, hb⟩ | ⟨-, hb⟩
  all_goals exact ⟨_, hb⟩

/-- Whether the arguments are two values that both hide NaN in a map. -/
def hideNaN : List Value → Bool
  | [a, b] => a.hidesNaN && b.hidesNaN
  | _ => false

/-- Whether a call compares two values that both hide NaN in a map, so that its result
depends on what the maps have in common. -/
def comparesHiddenNaN (f : Function) (args : List Value) : Bool :=
  f.name == .stdlib "" "==" 0 && hideNaN args

theorem equals_congr {args : List Value} (h : hideNaN args = false)
    (sharing sharing' : Sharing) :
  equals sharing args = equals sharing' args
  := by
  unfold equals
  split
  · next a b =>
    have hhides : a.hidesNaN = false ∨ b.hidesNaN = false := by
      rwa [hideNaN, Bool.and_eq_false_iff] at h
    rw [Value.equals_eq_same sharing hhides, Value.equals_eq_same sharing' hhides]
  · rfl

/-- A pure function of the standard library depends on nothing but its arguments, unless it
compares what hides NaN. -/
theorem run_eq_of_pure {f : Function} (hf : f ∈ contents) (hpure : f.previewability = .pure)
    {b : Builtin} (hb : f.implementation = .builtin b) {args : List Value}
    (hargs : comparesHiddenNaN f args = false) (known known' : BuiltinContext) :
  b.run known args = b.run known' args
  := by
  rcases cases_of_mem hf with ⟨run, -, -, hrun⟩ | ⟨hname, hrun⟩ | ⟨-, hrun⟩
    | ⟨hrepeatable, -⟩
  · rw [hrun] at hb
    cases hb
    rfl
  · rw [hrun] at hb
    cases hb
    rw [comparesHiddenNaN, hname, beq_self_eq_true, Bool.true_and] at hargs
    exact congrArg BuiltinStep.finish (equals_congr hargs _ _)
  · rw [hrun] at hb
    cases hb
    rfl
  · rw [hpure] at hrepeatable
    cases hrepeatable

/-- The registry of the standard library. -/
def registry : Registry :=
  Registry.addAll [] contents

/-- A function of the library with further functions is a further one or one of the
library. -/
theorem mem_of_get?_addAll {fs : List Function} {name : FunctionName} {f : Function}
    (hf : Assoc.get? name (registry.addAll fs) = some f) :
  f ∈ fs ∨ f ∈ contents
  := by
  rcases Registry.get?_addAll hf with hmem | hget
  · exact .inl hmem
  · rcases Registry.get?_addAll hget with hmem | hget
    · exact .inr hmem
    · cases hget

/-- A built-in of the standard library with functions written in the language is one of
the standard library. -/
theorem mem_contents_of_builtin {fs : List Function}
    (hfs : ∀ f ∈ fs, f.isBuiltin = false) {name : FunctionName} {f : Function} {b : Builtin}
    (hf : Assoc.get? name (registry.addAll fs) = some f)
    (hb : f.implementation = .builtin b) :
  f ∈ contents
  := by
  rcases mem_of_get?_addAll hf with hmem | hmem
  · have hwritten := hfs f hmem
    rw [Function.isBuiltin, hb] at hwritten
    cases hwritten
  · exact hmem

theorem name_of_get? (name : FunctionName) (f : Function)
    (hf : Assoc.get? name registry = some f) :
  f.name = name
  := by
  have hnone : ∀ name f, Assoc.get? name ([] : Registry) = some f → f.name = name := by
    intro name f hf
    cases hf
  exact Registry.name_of_get?_addAll hnone hf

end LiveExpr.Stdlib
