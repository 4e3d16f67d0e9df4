import DeclCheck.Analysis.CalledNames
import DeclCheck.Analysis.DeclaredNames

/-!
# Analysis of a program

Declarations come first.  Then the items are visited in source order: a function
has its locals checked and then its calls, the other items only their calls.
An analysis can be told to stop at the first undefined call.
-/

namespace DeclCheck

/-- How far calls are looked for, and whether the first undefined one ends the
analysis. -/
structure AnalysisOptions where
  callReach : CallReach := .shallow
  stopAtUndefinedCall : Bool := false
  deriving DecidableEq, Repr

/-- What the visit of some items leaves behind: the scopes of the functions among
them, as far as they were visited, and the number of the diagnostic at which the
visit was stopped. -/
structure Visit where
  diagnostics : DiagnosticLog
  bodies : List BodyScope := []
  stoppedBy : Option Nat := none

/-- Checks one item. -/
def visitItem (options : AnalysisOptions) (scope : ProgramScope) (item : Item)
    (log : DiagnosticLog) : Visit :=
  let (bodies, log) := match item with
    | .function decl =>
        let (body, log) := checkBody decl log
        ([body], log)
    | _ => ([], log)
  let (stoppedBy, log) :=
    checkItemCalls scope options.callReach options.stopAtUndefinedCall item log
  { diagnostics := log, bodies := bodies, stoppedBy := stoppedBy }

/-- Checks items in order, up to the one that stops the visit. -/
def visitItems (options : AnalysisOptions) (scope : ProgramScope) :
    List Item → DiagnosticLog → Visit
  | [], log => { diagnostics := log }
  | item :: rest, log =>
      let first := visitItem options scope item log
      match first.stoppedBy with
      | some _ => first
      | none =>
          let others := visitItems options scope rest first.diagnostics
          { others with bodies := first.bodies ++ others.bodies }

/-- What an analysis knows besides its findings. -/
structure Analysis where
  globals : ProgramScope
  bodies : List BodyScope
  stoppedBy : Option Nat

/-- Analyzes a program and adds the findings to a log. -/
def analyze (options : AnalysisOptions) (program : Program)
    (log : DiagnosticLog) : Analysis × DiagnosticLog :=
  let (globals, log) := enterDeclarations program ({}, log)
  let visit := visitItems options globals program.items log
  ({ globals := globals, bodies := visit.bodies, stoppedBy := visit.stoppedBy },
    visit.diagnostics)

end DeclCheck
