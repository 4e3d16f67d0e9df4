import DeclCheck.BodyScope
import DeclCheck.Diagnostic
import DeclCheck.ProgramScope
import DeclCheck.ValueForm

/-!
# What the checks can find

Each finding knows its kind and its wording, and is filed in a log with
the region it is about.
-/

namespace DeclCheck

/-- Something that is wrong with what a program says. -/
inductive Finding where
  | duplicateFunction (signature : Signature)
  | duplicateGlobal (name : String)
  | typeMismatch (type text : String)
  | shadowedParameter (name function : String)
  | duplicateLocal (name function : String)
  | undefinedCall (name : String)
  deriving DecidableEq, Repr

namespace Finding

def kind : Finding → DiagnosticKind
  | duplicateFunction _ => .duplicateFunction
  | duplicateGlobal _ => .duplicateGlobal
  | typeMismatch .. => .typeMismatch
  | shadowedParameter .. => .shadowedParameter
  | duplicateLocal .. => .duplicateLocal
  | undefinedCall _ => .undefinedCall

def message : Finding → String
  | duplicateFunction signature =>
      s!"function '{signature.name}' is already defined with the same " ++
        s!"parameter list '{signature.text}'"
  | duplicateGlobal name => s!"global variable '{name}' is declared more than once"
  | typeMismatch type text =>
      s!"type '{type}' is not compatible with value '{text}'"
  | shadowedParameter name function =>
      s!"local variable '{name}' in function '{function}' has the same name as " ++
        "a parameter"
  | duplicateLocal name function =>
      s!"local variable '{name}' is declared more than once in function " ++
        s!"'{function}'"
  | undefinedCall name => s!"function '{name}' is called but never defined"

end Finding

namespace DiagnosticLog

/-- Records a finding about a region of the source. -/
def file (log : DiagnosticLog) (finding : Finding) (span : Span) :
    DiagnosticLog :=
  log.addAt finding.kind finding.message span

/-- Files a mismatch unless the text can be the initial value of a variable of
the given type. -/
def checkValue (log : DiagnosticLog) (type text : String) (span : Span) :
    DiagnosticLog :=
  if suits type text then log
  else log.file (.typeMismatch type text) span

end DiagnosticLog

end DeclCheck
