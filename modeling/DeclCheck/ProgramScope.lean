import DeclCheck.Signature

/-!
# Names at the top level

A program scope knows variables by name and functions by signature.  Declaring
what is already there changes nothing and says so.
-/

namespace DeclCheck

/-- The names declared at the top level, each once, in order of declaration. -/
structure ProgramScope where
  variableNames : List String := []
  signatures : List Signature := []
  deriving DecidableEq, Repr

namespace ProgramScope

/-- The scope with one more variable, or nothing if the name is taken. -/
def addVariable? (scope : ProgramScope) (name : String) : Option ProgramScope :=
  if name ∈ scope.variableNames then none
  else some { scope with variableNames := scope.variableNames ++ [name] }

/-- The scope with one more function, or nothing if the signature is taken. -/
def addFunction? (scope : ProgramScope) (signature : Signature) :
    Option ProgramScope :=
  if signature ∈ scope.signatures then none
  else some { scope with signatures := scope.signatures ++ [signature] }

def knowsVariable (scope : ProgramScope) (name : String) : Bool :=
  name ∈ scope.variableNames

/-- Whether some function has the name, whatever its parameters. -/
def knowsFunction (scope : ProgramScope) (name : String) : Bool :=
  scope.signatures.any (·.name = name)

end ProgramScope

end DeclCheck
