import LiveExpr.Codec.Roundtrip
import LiveExpr.Eval.Execution
import LiveExpr.Program.Definition
import LiveExpr.Stdlib

/-!
# Programs

A program as it is stored: its main expression, the functions and record types that it
defines, and the values of its inputs.  Main functions: `parse?` for its text, and
`evaluate`, its value.
-/

namespace LiveExpr

/-- A program. -/
structure Program where
  expr : Expr
  toplevel : ToplevelId
  functions : List Function
  packages : List Function
  types : List UserType
  /-- The inputs, in the round-trip representation. -/
  inputs : List (String × Json)

namespace Program

/-- The inputs that a tree states; the tree nests at most `depth` deep.  No name of an input
is reserved. -/
def inputsOfTree? : Nat → RawJson → Option (List (String × Json))
  | depth + 1, .object members => (RawJson.convertMembers? true depth members).map Fields.ofPairs
  | _, _ => none

/-- The program that a tree states; the tree nests at most `depth` deep. -/
def ofTree? (depth : Nat) (j : RawJson) : Option Program := do
  match depth, ← j.fields? ["expr", "tlid", "functions", "packages", "types", "inputs"] with
  | depth + 1, [some expr, toplevel, functions, packages, types, inputs] =>
    some {
      expr := ← Expr.ofTree? depth expr
      toplevel := ← RawJson.orElse 0 RawJson.id? toplevel
      functions := ← RawJson.orElse [] (RawJson.list? Function.userOfTree? depth) functions
      packages := ← RawJson.orElse [] (RawJson.list? Function.packageOfTree? depth) packages
      types := ← RawJson.orElse [] (RawJson.list? UserType.ofTree? depth) types
      inputs := ← RawJson.orElse [] (inputsOfTree? depth) inputs }
  | _, _ => none

/-- The program that a text states. -/
def parse? (text : String) : Option Program :=
  (RawJson.parse? text).bind (ofTree? Json.depthLimit)

/-- The standard library with the functions of the program. -/
def registry (p : Program) : Registry :=
  (Stdlib.registry.addAll p.functions).addAll p.packages

/-- The value of an input, whose text is read by itself. -/
def inputValue (input : String × Json) : Except CodecError (String × Value) := do
  let value ← Roundtrip.read input.2.compact
  .ok (input.1, value)

/-- The inputs as variables. -/
def scope (p : Program) : Except CodecError Scope := do
  let pairs ← p.inputs.mapM inputValue
  .ok (Fields.ofPairs pairs)

/-- The context of the main expression. -/
def context (p : Program) (mode : Mode) (hashVersion : UInt32) : Context :=
  .start mode hashVersion p.toplevel p.registry p.types

/-- The run of the main expression. -/
def run (p : Program) (mode : Mode) (hashVersion : UInt32) (scope : Scope) : Run Value :=
  match mode with
  | .real => Execution.execute (p.context mode hashVersion) scope p.expr
  | .preview => do
    let analysis ← Execution.analyse (p.context mode hashVersion) scope p.expr
    pure analysis.result

/-- The value of a program at a time by the clock. -/
def evaluate (p : Program) (mode : Mode) (hashVersion : UInt32) (now : Timestamp) :
    Except CodecError (Outcome Value) := do
  let scope ← p.scope
  .ok (p.run mode hashVersion scope (.fresh now)).1

end Program

end LiveExpr
