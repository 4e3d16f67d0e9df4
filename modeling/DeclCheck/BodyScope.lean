/-!
# Names of a function

A function has a scope of its own for parameters and locals, which may share
names with each other.  Declaring what is already there changes nothing and says
so.
-/

namespace DeclCheck

/-- The names declared by a function, each once, in order of declaration. -/
structure BodyScope where
  function : String
  parameters : List String := []
  locals : List String := []
  deriving DecidableEq, Repr

namespace BodyScope

/-- The scope with one more parameter, or nothing if the name is taken by
another parameter. -/
def addParameter? (scope : BodyScope) (name : String) :
    Option BodyScope :=
  if name ∈ scope.parameters then none
  else some { scope with parameters := scope.parameters ++ [name] }

/-- The scope with one more local, or nothing if the name is taken by another
local.  Parameters do not count. -/
def addLocal? (scope : BodyScope) (name : String) :
    Option BodyScope :=
  if name ∈ scope.locals then none
  else some { scope with locals := scope.locals ++ [name] }

def knowsParameter (scope : BodyScope) (name : String) : Bool :=
  name ∈ scope.parameters

end BodyScope

end DeclCheck
