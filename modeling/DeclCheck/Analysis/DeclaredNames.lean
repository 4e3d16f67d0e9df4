import DeclCheck.Analysis.Finding

/-!
# Checking the names that are declared

The scope of the program is complete before any body is looked at: all functions
are entered first, then all global variables.  The initial value of a global is
checked even when its name was taken.

In a function body only the declarations that stand directly in it count; those
in nested blocks are not looked at.
-/

namespace DeclCheck

/-- Declares a function, or files that its signature is taken. -/
def enterFunction (state : ProgramScope × DiagnosticLog) (function : FunctionDecl) :
    ProgramScope × DiagnosticLog :=
  let (scope, log) := state
  let signature := Signature.ofFunction function
  match scope.addFunction? signature with
  | some extended => (extended, log)
  | none =>
      (scope, log.file (.duplicateFunction signature) function.span)

/-- Declares a global variable, or files that its name is taken; then checks its
initial value. -/
def enterGlobal (state : ProgramScope × DiagnosticLog) (decl : VariableDecl) :
    ProgramScope × DiagnosticLog :=
  let (scope, log) := state
  let (scope, log) := match scope.addVariable? decl.name with
    | some extended => (extended, log)
    | none => (scope, log.file (.duplicateGlobal decl.name) decl.span)
  match decl.init with
  | some value =>
      (scope, log.checkValue decl.type value.text decl.span)
  | none => (scope, log)

/-- Declares everything that a program declares at the top level. -/
def enterDeclarations (program : Program) (state : ProgramScope × DiagnosticLog) :
    ProgramScope × DiagnosticLog :=
  program.globals.foldl enterGlobal (program.functions.foldl enterFunction state)

/-- Declares a parameter.  A repeated name is no finding. -/
def enterParameter (scope : BodyScope) (param : Parameter) : BodyScope :=
  (scope.addParameter? param.name).getD scope

/-- Declares a local.  That it has the name of a parameter and that its name is
taken by another local are findings of their own, in this order. -/
def enterLocal (state : BodyScope × DiagnosticLog) (decl : VariableDecl) :
    BodyScope × DiagnosticLog :=
  let (scope, log) := state
  let log :=
    if scope.knowsParameter decl.name then
      log.file (.shadowedParameter decl.name scope.function) decl.span
    else log
  match scope.addLocal? decl.name with
  | some extended => (extended, log)
  | none =>
      (scope, log.file (.duplicateLocal decl.name scope.function) decl.span)

/-- The scope of a function, with the findings about its locals filed. -/
def checkBody (function : FunctionDecl) (log : DiagnosticLog) :
    BodyScope × DiagnosticLog :=
  let scope := function.parameters.foldl enterParameter { function := function.name }
  function.locals.foldl enterLocal (scope, log)

end DeclCheck
