import LiveExpr.Codec.Developer
import LiveExpr.Codec.EndUser
import LiveExpr.Program.Basic

/-!
# The command line

The commands, their options, and what they print.  `eval` evaluates a stored program and
`hash` prints the hash of a list of stored values.  Main functions: `parseArgs`, and
`respond`, the output of a command line where files are read by a given reader.
-/

namespace LiveExpr.CommandLine

/-! ### Commands -/

/-- How a value is printed. -/
inductive OutputFormat where
  | endUser
  | developer
  | json
  | roundtrip
deriving DecidableEq, Repr

/-- The text of a value in a format. -/
def OutputFormat.render : OutputFormat → Value → String
  | .endUser => EndUser.write
  | .developer => Developer.write
  | .json => MachineJson.write
  | .roundtrip => Roundtrip.write

/-- The options of `eval`. -/
structure EvalOptions where
  path : String
  preview : Bool
  format : OutputFormat
  hashVersion : UInt32
deriving DecidableEq, Repr

/-- The options of `hash`. -/
structure HashOptions where
  path : String
  version : UInt32
deriving DecidableEq, Repr

/-- A command. -/
inductive Command where
  | eval (options : EvalOptions)
  | hash (options : HashOptions)
  | help
deriving DecidableEq, Repr

/-! ### Errors -/

/-- Why a command line is none. -/
inductive UsageError where
  | missingCommand
  | unknownCommand (name : String)
  | unknownOption (arg : String)
  | unexpectedArgument (arg : String)
  | missingProgram
  | missingValues
  | unknownFormat (name : String)
  | invalidVersion (text : String)
  | unsupportedVersion (version : UInt32)
deriving DecidableEq, Repr

/-- The wording of an error. -/
def UsageError.message : UsageError → String
  | .missingCommand => "missing command"
  | .unknownCommand name => "unknown command `" ++ name ++ "`"
  | .unknownOption arg => "unknown option `" ++ arg ++ "`"
  | .unexpectedArgument arg => "unexpected argument `" ++ arg ++ "`"
  | .missingProgram => "missing program path"
  | .missingValues => "missing values path"
  | .unknownFormat name =>
    "unknown format `" ++ name ++ "` (expected enduser, developer, json or roundtrip)"
  | .invalidVersion text => "invalid hash version `" ++ text ++ "`"
  | .unsupportedVersion version => "unsupported hash version " ++ toString version.toNat

/-- Why a command fails. -/
inductive CommandError where
  | read (path reason : String)
  | program
  | codec (e : CodecError)
  | outOfFuel
deriving DecidableEq, Repr

/-- The wording of an error. -/
def CommandError.message : CommandError → String
  | .read path reason => "cannot read " ++ path ++ ": " ++ reason
  | .program => "invalid program: the text does not have the right form"
  | .codec e => e.message
  | .outOfFuel => "evaluation is too deep"

/-! ### Arguments -/

/-- The format of a name. -/
def OutputFormat.parse : String → Except UsageError OutputFormat
  | "enduser" => .ok .endUser
  | "developer" => .ok .developer
  | "json" => .ok .json
  | "roundtrip" => .ok .roundtrip
  | name => .error (.unknownFormat name)

/-- The number of 32 bits that a text states: digits, after a plus sign or not. -/
def parseNumber? (text : String) : Option UInt32 :=
  let digits := match text.toList with
    | '+' :: rest => rest
    | rest => rest
  if digits ≠ [] ∧ digits.all Text.isDigit ∧ Text.digitsValue digits < UInt32.size then
    some (UInt32.ofNat (Text.digitsValue digits))
  else none

/-- The hash version that a text states. -/
def parseVersion (text : String) : Except UsageError UInt32 :=
  match parseNumber? text with
  | none => .error (.invalidVersion text)
  | some version =>
    if version ∈ Hashable.supportedVersions then .ok version
    else .error (.unsupportedVersion version)

/-- What follows the name of an option in an argument. -/
def optionValue? (name arg : String) : Option String :=
  if name.toList.isPrefixOf arg.toList then
    some (.ofList (arg.toList.drop name.toList.length))
  else none

/-- Whether an argument looks like an option. -/
def looksLikeOption (arg : String) : Bool :=
  arg.toList.head? = some '-'

/-- Takes an argument for the path, of which there is one. -/
def takePath (path : Option String) (arg : String) : Except UsageError (Option String) :=
  if looksLikeOption arg then .error (.unknownOption arg)
  else if path.isSome then .error (.unexpectedArgument arg)
  else .ok (some arg)

/-- Reads the arguments of `eval` after those that gave `path` and `options`. -/
def parseEval (path : Option String) (options : EvalOptions) :
    List String → Except UsageError EvalOptions
  | [] =>
    match path with
    | some path => .ok { options with path }
    | none => .error .missingProgram
  | arg :: rest =>
    if arg = "--preview" then parseEval path { options with preview := true } rest
    else
      match optionValue? "--format=" arg with
      | some name => do
        let format ← OutputFormat.parse name
        parseEval path { options with format } rest
      | none =>
        match optionValue? "--hash-version=" arg with
        | some text => do
          let hashVersion ← parseVersion text
          parseEval path { options with hashVersion } rest
        | none => do
          let path ← takePath path arg
          parseEval path options rest

/-- Reads the arguments of `hash` after those that gave `path` and `version`. -/
def parseHash (path : Option String) (version : UInt32) :
    List String → Except UsageError HashOptions
  | [] =>
    match path with
    | some path => .ok ⟨path, version⟩
    | none => .error .missingValues
  | arg :: rest =>
    match optionValue? "--version=" arg with
    | some text => do
      let version ← parseVersion text
      parseHash path version rest
    | none => do
      let path ← takePath path arg
      parseHash path version rest

/-- The options of `eval` when none is given. -/
def EvalOptions.default : EvalOptions :=
  ⟨"", false, .endUser, Hashable.currentVersion⟩

/-- The command of a list of arguments, of which the first is the program's name. -/
def parseArgs : List String → Except UsageError Command
  | [] | [_] => .error .missingCommand
  | _ :: name :: rest =>
    match name with
    | "eval" => (parseEval none .default rest).map .eval
    | "hash" => (parseHash none Hashable.currentVersion rest).map .hash
    | "help" | "--help" | "-h" => .ok .help
    | _ => .error (.unknownCommand name)

/-! ### Commands at work -/

/-- The mode that `--preview` selects. -/
def EvalOptions.mode (options : EvalOptions) : Mode :=
  if options.preview then .preview else .real

/-- The value of a program under options. -/
def evaluate (p : Program) (options : EvalOptions) (now : Timestamp) :
    Except CommandError Value :=
  match p.evaluate options.mode options.hashVersion now with
  | .error e => .error (.codec e)
  | .ok (.done value) => .ok value
  | .ok (.fault reason) => .ok (Message.internalFault .unknown (Run.faultText reason))
  | .ok .outOfFuel => .error .outOfFuel

/-- The hash of the values in a JSON array, each of which is read from a text of its
own. -/
def hashValues (text : String) (version : UInt32) : Except CommandError String :=
  match Json.parse? text with
  | some (.array items) =>
    match items.mapM fun item => Roundtrip.read item.compact with
    | .error e => .error (.codec e)
    | .ok values =>
      match Hashable.hash version values with
      | .error e => .error (.codec e)
      | .ok hash => .ok hash
  | _ => .error .program

/-- A reader of files: the text of a path, or why it cannot be read. -/
abbrev FileReader := String → Except String String

/-- The text of a file. -/
def readFile (files : FileReader) (path : String) : Except CommandError String :=
  (files path).mapError (.read path)

/-- What `eval` prints. -/
def runEval (files : FileReader) (now : Timestamp) (options : EvalOptions) :
    Except CommandError String := do
  let text ← readFile files options.path
  match Program.parse? text with
  | none => .error .program
  | some p => do
    let value ← evaluate p options now
    .ok (options.format.render value)

/-- What `hash` prints. -/
def runHash (files : FileReader) (options : HashOptions) : Except CommandError String := do
  let text ← readFile files options.path
  hashValues text options.version

/-! ### Output -/

/-- The message about commands and options. -/
def usage : String :=
  "Usage: darkc <command> [options]\n"
    ++ "\n"
    ++ "Commands:\n"
    ++ "  eval <program.json>   Evaluate a serialized program\n"
    ++ "  hash <values.json>    Hash a JSON array of values\n"
    ++ "  help                  Show this message\n"
    ++ "\n"
    ++ "Eval options:\n"
    ++ "  --preview             Evaluate in preview mode (no impure calls)\n"
    ++ "  --format=<format>     enduser (default), developer, json, roundtrip\n"
    ++ "  --hash-version=<n>    Argument hash version for recorded results\n"
    ++ "\n"
    ++ "Hash options:\n"
    ++ "  --version=<n>         Hash version (default: current)\n"
    ++ "\n"
    ++ "Logging: RUST_LOG=dark_eval=debug, DARK_LOG_TREE=1 for tree output\n"

/-- The exit code of a command and what it writes to its two outputs. -/
structure Response where
  code : Nat
  output : String
  errors : String
deriving DecidableEq, Repr

/-- The response of a command that prints a line or fails. -/
def Response.ofResult : Except CommandError String → Response
  | .ok text => ⟨0, text ++ "\n", ""⟩
  | .error e => ⟨1, "", "error: " ++ e.message ++ "\n"⟩

/-- The response to a list of arguments, of which the first is the program's name. -/
def respond (files : FileReader) (now : Timestamp) (args : List String) : Response :=
  match parseArgs args with
  | .error e => ⟨1, "", "error: " ++ e.message ++ "\n\n" ++ usage⟩
  | .ok .help => ⟨0, "", usage⟩
  | .ok (.eval options) => .ofResult (runEval files now options)
  | .ok (.hash options) => .ofResult (runHash files options)

/-- The file that a list of arguments has read, if it has one read. -/
def pathOf? (args : List String) : Option String :=
  match parseArgs args with
  | .ok (.eval options) => some options.path
  | .ok (.hash options) => some options.path
  | _ => none

end LiveExpr.CommandLine
