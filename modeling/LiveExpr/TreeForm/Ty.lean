import LiveExpr.Ty
import LiveExpr.TreeForm.Name

/-!
# Types as trees

The JSON form of declared types, of record columns and of the record types that a
program defines.
-/

namespace LiveExpr

namespace TypeName

/-- The name of a record type, from its fields. -/
def ofTree? (j : RawJson) : Option TypeName := do
  match ← j.fields? ["name", "version"] with
  | [some name, some version] => some ⟨← name.text?, ← version.version?⟩
  | _ => none

/-- The tree of the name of a record type. -/
def toTree (n : TypeName) : Json :=
  .ofPairs [("name", .string n.name), ("version", .ofVersion n.version)]

end TypeName

namespace Ty

/-- The type of a kind without parts. -/
def ofBareTag? : String → Option Ty
  | "TInt" => some .int
  | "TFloat" => some .float
  | "TBool" => some .bool
  | "TNull" => some .null
  | "TStr" => some .str
  | "TChar" => some .char
  | "TIncomplete" => some .incomplete
  | "TError" => some .error
  | "TDate" => some .date
  | "TPassword" => some .password
  | "TUuid" => some .uuid
  | "TErrorRail" => some .errorRail
  | "TBytes" => some .bytes
  | _ => none

/-- The column of a record, its type read by the given reader. -/
def readColumn? (read : RawJson → Option Ty) (j : RawJson) : Option (String × Ty) := do
  match ← j.fields? ["name", "typ"] with
  | [some name, some type] => some (← name.text?, ← read type)
  | _ => none

/-- The type that a tree states; the tree nests at most `depth` deep. -/
def ofTree? : Nat → RawJson → Option Ty
  | 0, j =>
    match j.choice? with
    | some (tag, none) => ofBareTag? tag
    | _ => none
  | depth + 1, j =>
    match j.choice? with
    | some (tag, none) => ofBareTag? tag
    | some (tag, some .null) => ofBareTag? tag
    | some ("TList", some item) => (ofTree? depth item).map .list
    | some ("TDict", some value) => (ofTree? depth value).map .dict
    | some ("THttpResponse", some body) => (ofTree? depth body).map .response
    | some ("TDB", some row) => (ofTree? depth row).map .db
    | some ("TOption", some value) => (ofTree? depth value).map .option
    | some ("TVariable", some name) => name.text?.map .variable
    | some ("TResult", some (.array [value, failure])) =>
      match depth with
      | depth + 1 => do some (.result (← ofTree? depth value) (← ofTree? depth failure))
      | 0 => none
    | some ("TFn", some (.array [.array parameters, returned])) =>
      match depth with
      | depth + 1 => do
        let returned ← ofTree? depth returned
        match depth with
        | depth + 1 => do some (.function (← parameters.mapM (ofTree? depth)) returned)
        | 0 => none
      | 0 => none
    | some ("TRecord", some (.array columns)) =>
      match depth with
      | depth + 2 => (columns.mapM (readColumn? (ofTree? depth))).map .record
      | 1 => if columns.isEmpty then some (.record []) else none
      | 0 => none
    | some ("TUserType", some name) =>
      if depth = 0 then none else (TypeName.ofTree? name).map .userType
    | _ => none

/-- The column that a tree states. -/
def columnOfTree? (depth : Nat) (j : RawJson) : Option (String × Ty) :=
  match depth with
  | depth + 1 => readColumn? (ofTree? depth) j
  | 0 => none

/-- The tree of a column, given the tree of its type. -/
def columnTree (name : String) (type : Json) : Json :=
  .ofPairs [("name", .string name), ("typ", type)]

mutual

/-- The tree of a type. -/
def toTree : Ty → Json
  | .int => .string "TInt"
  | .float => .string "TFloat"
  | .bool => .string "TBool"
  | .null => .string "TNull"
  | .str => .string "TStr"
  | .char => .string "TChar"
  | .list item => .tagged "TList" (toTree item)
  | .dict value => .tagged "TDict" (toTree value)
  | .incomplete => .string "TIncomplete"
  | .error => .string "TError"
  | .response body => .tagged "THttpResponse" (toTree body)
  | .db row => .tagged "TDB" (toTree row)
  | .date => .string "TDate"
  | .password => .string "TPassword"
  | .uuid => .string "TUuid"
  | .option value => .tagged "TOption" (toTree value)
  | .errorRail => .string "TErrorRail"
  | .result value failure => .tagged "TResult" (.array [toTree value, toTree failure])
  | .bytes => .string "TBytes"
  | .variable name => .tagged "TVariable" (.string name)
  | .function parameters returned =>
    .tagged "TFn" (.array [.array (toTrees parameters), toTree returned])
  | .record fields => .tagged "TRecord" (.array (columnTrees fields))
  | .userType name => .tagged "TUserType" name.toTree

/-- The trees of a list of types. -/
def toTrees : List Ty → List Json
  | [] => []
  | type :: rest => toTree type :: toTrees rest

/-- The trees of columns. -/
def columnTrees : List (String × Ty) → List Json
  | [] => []
  | (name, type) :: rest => columnTree name (toTree type) :: columnTrees rest

end

end Ty

namespace UserType

/-- The record type that a tree states; the tree nests at most `depth` deep. -/
def ofTree? (depth : Nat) (j : RawJson) : Option UserType := do
  match depth, ← j.fields? ["name", "fields"] with
  | depth + 2, [some name, some (.array columns)] =>
    some ⟨← TypeName.ofTree? name, ← columns.mapM (Ty.columnOfTree? depth)⟩
  | _, _ => none

/-- The tree of a record type. -/
def toTree (t : UserType) : Json :=
  .ofPairs [("name", t.name.toTree), ("fields", .array (Ty.columnTrees t.fields))]

end UserType

end LiveExpr
