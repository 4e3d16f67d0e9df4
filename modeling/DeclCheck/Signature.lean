import DeclCheck.Program

/-!
# Signatures of functions

Functions may share a name as long as the types of their parameters differ.
-/

namespace DeclCheck

/-- What tells two functions apart: the name and the types of the parameters, in
order. -/
structure Signature where
  name : String
  types : List String
  deriving DecidableEq, Repr

namespace Signature

def ofFunction (function : FunctionDecl) : Signature where
  name := function.name
  types := function.parameters.map Parameter.type

/-- The name with the list of types in parentheses. -/
def text (signature : Signature) : String :=
  let types := String.intercalate ", " signature.types
  s!"{signature.name}({types})"

end Signature

end DeclCheck
