/-!
# Declared types

What a signature, a record column or the definition of a record type promises of a
value, and the short names under which messages mention types.
-/

namespace LiveExpr

/-- The name and version of a record type that a program defines. -/
structure TypeName where
  name : String
  version : UInt32
deriving DecidableEq, Repr

/-- A declared type. -/
inductive Ty where
  | int
  | float
  | bool
  | null
  | str
  | char
  | list (item : Ty)
  | dict (value : Ty)
  | incomplete
  | error
  | response (body : Ty)
  | db (row : Ty)
  | date
  | password
  | uuid
  | option (value : Ty)
  | errorRail
  | result (value error : Ty)
  | bytes
  | variable (name : String)
  | function (parameters : List Ty) (result : Ty)
  | record (fields : List (String × Ty))
  | userType (name : TypeName)
deriving Repr

/-- A record type that a program defines. -/
structure UserType where
  name : TypeName
  fields : List (String × Ty)
deriving Repr

namespace Ty

/-- The type variable that stands for any type. -/
def any : Ty := .variable "a"

/-- The short name of a type, which says nothing of its parts. -/
def typeName : Ty → String
  | .int => "Int"
  | .float => "Float"
  | .bool => "Bool"
  | .null => "Null"
  | .str => "Str"
  | .char => "Character"
  | .list _ => "List"
  | .dict _ | .record _ => "Dict"
  | .incomplete => "Incomplete"
  | .error => "Error"
  | .response _ => "Response"
  | .db _ => "DB"
  | .date => "Date"
  | .password => "Password"
  | .uuid => "UUID"
  | .option _ => "Option"
  | .errorRail => "ErrorRail"
  | .result _ _ => "Result"
  | .bytes => "Bytes"
  | .function _ _ => "Block"
  | .variable name => "'" ++ name
  | .userType name => name.name

end Ty

end LiveExpr
