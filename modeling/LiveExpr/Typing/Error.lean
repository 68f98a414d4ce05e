import LiveExpr.Ty

/-!
# Type errors

What is wrong with a value where a type is declared, and where in the value: the names
that lead there, the outermost first.
-/

namespace LiveExpr

/-- What is wrong with a value. -/
inductive TypeFault where
  | unknownType (name : TypeName)
  | mismatch (expected actual : Ty)
  | fields (missing extra : List String)

/-- A fault and the names that lead to it. -/
structure TypeError where
  path : List String
  fault : TypeFault

namespace TypeFault

/-- The wording for names that should and should not be there. -/
def fieldsMessage (missing extra : List String) : String :=
  let lacks := "Expected but did not find: [" ++ ", ".intercalate missing ++ "]"
  let has := "Found but did not expect: [" ++ ", ".intercalate extra ++ "]"
  match missing, extra with
  | [], [] => "Record fields do not match"
  | _ :: _, [] => lacks
  | [], _ :: _ => has
  | _ :: _, _ :: _ => lacks ++ " & " ++ has

/-- The wording of a fault. -/
def message : TypeFault → String
  | .unknownType name =>
    "Could not find type " ++ name.name ++ "_v" ++ toString name.version.toNat
  | .mismatch expected actual =>
    "Expected to see a value of type " ++ expected.typeName ++ " but found a "
      ++ actual.typeName
  | .fields missing extra => fieldsMessage missing extra

end TypeFault

namespace TypeError

/-- An error at the root of a value. -/
def atRoot (fault : TypeFault) : TypeError :=
  ⟨[], fault⟩

/-- An error as seen from outside a part of the given name. -/
def within (name : String) (e : TypeError) : TypeError :=
  { e with path := name :: e.path }

/-- The wording of an error. -/
def message (e : TypeError) : String :=
  match e.path with
  | [] => e.fault.message
  | path => ".".intercalate path ++ ": " ++ e.fault.message

/-- The wording of a list of errors. -/
def messages (errors : List TypeError) : String :=
  "; ".intercalate (errors.map message)

end TypeError

end LiveExpr
