import LiveExpr.Codec.Developer
import LiveExpr.Value.Basic

/-!
# Messages

The errors that evaluation makes, with their wording.  An error is a value: it flows
through the program and is shown where it was made.
-/

namespace LiveExpr.Message

/-- The name of a variable is not in scope. -/
def unboundVariable (source : Source) (name : String) : Value :=
  .failure source ("There is no variable named: " ++ name)

/-- A text is no character. -/
def invalidCharacter (source : Source) (e : Value.CharacterError) : Value :=
  .failure source e.message

/-- A field is taken of a value without fields. -/
def notARecord (source : Source) (value : Value) : Value :=
  .failure source ("Attempting to access a field of something that isn't a record or dict, (it's a "
    ++ value.typeName ++ ").")

/-- A value that is no function is applied. -/
def notAFunction (source : Source) (value : Value) : Value :=
  .failure source
    ("Expected a function value, got something else: " ++ Developer.write value)

/-- A name is that of no constructor. -/
def invalidConstructor (source : Source) (name : String) : Value :=
  .failure source ("Invalid constructor: " ++ name)

/-- A function does not exist. -/
def functionNotFound (source : Source) (name : FunctionName) : Value :=
  .failure source ("Function " ++ name.display ++ " is not found")

/-- A function is called with a wrong number of arguments. -/
def wrongCount (source : Source) (name : FunctionName) (expected actual : Nat) : Value :=
  .failure source (name.display ++ " has " ++ toString expected
    ++ " parameters, but here was called with " ++ toString actual ++ " arguments.")

/-- A lambda is applied to a wrong number of arguments. -/
def wrongLambdaCount (source : Source) (expected actual : Nat) : Value :=
  .failure source ("Expected " ++ toString expected ++ " arguments, got " ++ toString actual)

/-- A built-in refuses its arguments. -/
def wrongArguments (source : Source) (name : FunctionName) (args : List Value) : Value :=
  .failure source (name.display ++ " was called with the wrong argument types: ("
    ++ ", ".intercalate (args.map Value.typeName) ++ ")")

/-- Arguments are not of the declared types. -/
def parameterTypes (source : Source) (name : FunctionName) (errors : String) : Value :=
  .failure source ("Type error(s) in parameters of " ++ name.display ++ ": " ++ errors)

/-- A result is not of the declared type. -/
def returnType (source : Source) (errors : String) : Value :=
  .failure source ("Type error(s) in return type: " ++ errors)

/-- A result that should go onto the error rail is no option and no result. -/
def notOptionOrResult (source : Source) (value : Value) : Value :=
  .failure source ("Expecting the function to return an Option or Result, but it returned a "
    ++ value.typeName)

/-- Something failed altogether. -/
def internalFault (source : Source) (reason : String) : Value :=
  .failure source ("Internal error: " ++ reason)

end LiveExpr.Message
