import DeclCheck.Analysis
import DeclCheck.Parser.Program

/-!
# Checking a source text

A source text is read, its errors are recorded, and the program that could be
read is analyzed.  An empty program is not analyzed at all.
-/

namespace DeclCheck

/-- With `resetOnUndefinedCall` the first undefined call ends the analysis and
replaces every other diagnostic. -/
structure CheckOptions extends AnalysisOptions where
  resetOnUndefinedCall : Bool := false
  deriving DecidableEq, Repr

namespace DiagnosticLog

/-- Records an error of the source text itself. -/
def addSourceError (log : DiagnosticLog) (error : SourceError) :
    DiagnosticLog :=
  let kind := match error with
    | .lexical _ => .lexicalError
    | .syntactic _ => .syntaxError
  log.addAt kind error.message error.span

/-- Records the errors of a source text, in order. -/
def addSourceErrors (log : DiagnosticLog) (errors : List SourceError) :
    DiagnosticLog :=
  errors.foldl addSourceError log

end DiagnosticLog

/-- Analyzes a program under the options of a check. -/
def analyzeProgram (options : CheckOptions) (program : Program)
    (log : DiagnosticLog) : Analysis × DiagnosticLog :=
  let stop := options.stopAtUndefinedCall || options.resetOnUndefinedCall
  let (analysis, log) :=
    analyze { options.toAnalysisOptions with stopAtUndefinedCall := stop }
      program log
  match options.resetOnUndefinedCall, analysis.stoppedBy with
  | true, some id => (analysis, log.keepOnly id)
  | _, _ => (analysis, log)

/-- All that a check knows of a source text.  There is no analysis of an empty
program. -/
structure CheckResult where
  parse : Parse
  diagnostics : DiagnosticLog
  analysis : Option Analysis

namespace CheckResult

def program (result : CheckResult) : Program :=
  result.parse.program

/-- Whether nothing was found. -/
def foundNothing (result : CheckResult) : Bool :=
  result.diagnostics.entries.isEmpty

end CheckResult

/-- Checks a source text. -/
def check (options : CheckOptions) (source : List Char) : CheckResult :=
  let parsed := parse source
  let recorded := DiagnosticLog.addSourceErrors {} parsed.errors
  if parsed.program.items.isEmpty then
    { parse := parsed, diagnostics := recorded, analysis := none }
  else
    let (analysis, log) := analyzeProgram options parsed.program recorded
    { parse := parsed, diagnostics := log, analysis := some analysis }

end DeclCheck
