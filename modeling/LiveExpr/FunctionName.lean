import LiveExpr.Text.Decimal

/-!
# Function names

The names that functions are called by.  A standard function has a module, a package
function an owner, a library and a module, and both have a version; a user function has
a plain name.  A name is shown with its parts between `/` and `::`, and with its version
as a suffix `_vN` unless it is 0; reading a shown name splits it at the same marks.
-/

namespace LiveExpr

/-- The full name of a function. -/
inductive FunctionName where
  | stdlib (moduleName function : String) (version : UInt32)
  | user (name : String)
  | package (owner library moduleName function : String) (version : UInt32)
deriving DecidableEq, Repr

namespace FunctionName

/-- Whether a name belongs to the standard library. -/
def isStdlib : FunctionName → Bool
  | .stdlib .. => true
  | _ => false

/-! ### Showing -/

/-- A function with its version as a suffix, which version 0 does without. -/
def withVersion (function : String) (version : UInt32) : String :=
  if version = 0 then function else function ++ "_v" ++ toString version.toNat

/-- The shown form of a name. -/
def display : FunctionName → String
  | .stdlib moduleName function version =>
    if moduleName.isEmpty then withVersion function version
    else moduleName ++ "::" ++ withVersion function version
  | .user name => name
  | .package owner library moduleName function version =>
    owner ++ "/" ++ library ++ "/" ++ moduleName ++ "::" ++ withVersion function version

/-! ### Reading -/

/-- Why a text names no function. -/
inductive Fault where
  | empty
  | noModule
  | emptyPackagePart
  | emptyStdlibPart
  | parts
deriving DecidableEq, Repr

/-- The wording of a fault. -/
def Fault.reason : Fault → String
  | .empty => "empty name"
  | .noModule => "package function is missing `Module::`"
  | .emptyPackagePart => "empty component in package function name"
  | .emptyStdlibPart => "empty component in stdlib function name"
  | .parts => "expected `owner/package/Module::function`"

/-- The message for a text that names no function. -/
def Fault.message (fault : Fault) (text : String) : String :=
  "invalid function name `" ++ text ++ "`: " ++ fault.reason

/-- The parts of a text between slashes; there is at least one. -/
def splitSlashes : List Char → List (List Char)
  | [] => [[]]
  | c :: rest =>
    if c = '/' then [] :: splitSlashes rest
    else
      match splitSlashes rest with
      | [] => [[c]]
      | part :: parts => (c :: part) :: parts

/-- What stands before the first `::` of a text, and what stands after it. -/
def splitColons? : List Char → Option (List Char × List Char)
  | ':' :: ':' :: rest => some ([], rest)
  | [] => none
  | c :: rest => (splitColons? rest).map fun (before, after) => (c :: before, after)

/-- The function and the version of a text `function_vN`.  A text that does not end in
`_v` and digits of a 32-bit number is a function of version 0. -/
def splitVersion (text : List Char) : List Char × UInt32 :=
  let reversed := text.reverse
  let digits := (reversed.takeWhile Text.isDigit).reverse
  match reversed.dropWhile Text.isDigit with
  | 'v' :: '_' :: base =>
    let version := Text.digitsValue digits
    if digits ≠ [] ∧ version < UInt32.size then (base.reverse, UInt32.ofNat version)
    else (text, 0)
  | _ => (text, 0)

/-- The name that a text shows. -/
def parseChars (text : List Char) : Except Fault FunctionName :=
  if text = [] then .error .empty
  else
    match splitSlashes text with
    | [owner, library, rest] =>
      match splitColons? rest with
      | none => .error .noModule
      | some (moduleName, function) =>
        if owner = [] ∨ library = [] ∨ moduleName = [] ∨ function = [] then
          .error .emptyPackagePart
        else
          let (function, version) := splitVersion function
          .ok (.package (.ofList owner) (.ofList library) (.ofList moduleName)
            (.ofList function) version)
    | [single] =>
      match splitColons? single with
      | none => .ok (.user (.ofList single))
      | some (moduleName, function) =>
        if moduleName = [] ∨ function = [] then .error .emptyStdlibPart
        else
          let (function, version) := splitVersion function
          .ok (.stdlib (.ofList moduleName) (.ofList function) version)
    | _ => .error .parts

/-- The name that a string shows. -/
def parse (text : String) : Except Fault FunctionName :=
  parseChars text.toList

end FunctionName

end LiveExpr
