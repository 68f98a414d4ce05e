import LiveExpr.FunctionName
import LiveExpr.TreeForm.Reader

/-!
# Function names as trees

The JSON form of a function name: its kind, with the parts as the fields of a structure.
-/

namespace LiveExpr

/-- The object of one member. -/
def Json.tagged (tag : String) (value : Json) : Json :=
  .object [(tag, value)]

/-- The number of an identifier. -/
def Json.ofId (id : UInt64) : Json :=
  .ofInt id.toNat

/-- The number of a version. -/
def Json.ofVersion (version : UInt32) : Json :=
  .ofInt version.toNat

namespace FunctionName

/-- The name of a package function, from its fields. -/
def readPackage? (j : RawJson) : Option FunctionName := do
  match ← j.fields? ["owner", "package", "module", "function", "version"] with
  | [some owner, some library, some moduleName, some function, some version] =>
    some (.package (← owner.text?) (← library.text?) (← moduleName.text?)
      (← function.text?) (← version.version?))
  | _ => none

/-- The name of a standard function, from its fields. -/
def readStdlib? (j : RawJson) : Option FunctionName := do
  match ← j.fields? ["module", "function", "version"] with
  | [some moduleName, some function, some version] =>
    some (.stdlib (← moduleName.text?) (← function.text?) (← version.version?))
  | _ => none

/-- The name that a tree states; the tree nests at most `depth` deep. -/
def ofTree? (depth : Nat) (j : RawJson) : Option FunctionName :=
  match depth, j.choice? with
  | _ + 1, some ("User", some name) => name.text?.map .user
  | _ + 2, some ("Stdlib", some parts) => readStdlib? parts
  | _ + 2, some ("Package", some parts) => readPackage? parts
  | _, _ => none

/-- The tree of a name. -/
def toTree : FunctionName → Json
  | .user name => .tagged "User" (.string name)
  | .stdlib moduleName function version =>
    .tagged "Stdlib" (.ofPairs [("module", .string moduleName),
      ("function", .string function), ("version", .ofVersion version)])
  | .package owner library moduleName function version =>
    .tagged "Package" (.ofPairs [("owner", .string owner), ("package", .string library),
      ("module", .string moduleName), ("function", .string function),
      ("version", .ofVersion version)])

end FunctionName

end LiveExpr
