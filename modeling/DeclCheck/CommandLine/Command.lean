import DeclCheck.CommandLine.Arguments
import DeclCheck.CommandLine.Host
import DeclCheck.ProgramOutline
import DeclCheck.ReportFile
import DeclCheck.Snippet

/-!
# The command

The source is read and checked; dumps and progress are printed as asked, then
the diagnostics, and last the report files are saved.  The first file that
cannot be read or created ends the command.
-/

namespace DeclCheck.CommandLine

/-- How the command ended. -/
inductive Outcome where
  | clean
  | findings
  | failed
  deriving DecidableEq, Repr

namespace Outcome

def exitCode : Outcome → UInt32
  | clean => 0
  | failed => 1
  | findings => 2

end Outcome

/-- The tokens of a source, between two marks. -/
def tokenSection (source : List Char) : String :=
  "=== Tokens ===\n" ++ (TokenStream.ofSource source).dump ++ "=== End Tokens ===\n\n"

/-- The outline of a program, between two marks. -/
def treeSection (program : Program) : String :=
  "=== AST ===\n" ++ program.outline.text ++ "=== End AST ===\n\n"

/-- What an analysis tells while it goes on. -/
def analysisProgress (analysis : Analysis) : String :=
  let globals := analysis.globals
  let bodies := analysis.bodies.map fun body =>
    s!"  {body.function}: {body.parameters.length} parameter(s), " ++
      s!"{body.locals.length} local(s)\n"
  "Declaration pass...\n" ++
    s!"  {globals.signatures.length} function signature(s), " ++
    s!"{globals.variableNames.length} global variable(s)\n" ++
    "Body and call pass...\n" ++ String.join bodies ++
    (if analysis.stoppedBy.isSome then "  halted on undefined call\n" else "")

/-- What a check tells while it goes on. -/
def checkProgress (result : CheckResult) : String :=
  "Parsing...\n" ++
    s!"  {result.program.items.length} item(s), " ++
    s!"{result.parse.errors.length} front-end diagnostic(s)\n" ++
    match result.analysis with
    | some analysis => analysisProgress analysis
    | none => "Syntax tree is empty, skipping analysis\n"

/-- All diagnostics drawn into their source. -/
def drawnDiagnostics (name : String) (source : List Char)
    (diagnostics : List Diagnostic) : String :=
  let file := SourceFile.ofText name source
  String.join (diagnostics.map (·.drawn file))

/-- A file to be saved, and what it is called when that is told. -/
structure ReportRequest where
  label : String
  path : String
  content : String

/-- The report files that were asked for, in the order in which they are
saved. -/
def reportRequests (request : Request) (result : CheckResult) :
    List ReportRequest :=
  let one (label : String) (content : String) (path : String) : ReportRequest :=
    { label := label, path := path, content := content }
  let diagnostics := String.join (ReportFile.diagnosticLines result.diagnostics.entries)
  let functions := String.join (ReportFile.functionLines result.program)
  let globals := String.join (ReportFile.globalLines result.program)
  (request.errors.map (one "Diagnostics" diagnostics)).toList ++
    (request.functions.map (one "Functions" functions)).toList ++
    (request.globals.map (one "Global variables" globals)).toList

section

variable {m : Type → Type} [Monad m]

/-- Saves files in order, and answers whether all could be saved. -/
def saveReports (host : Host m) (verbose : Bool) : List ReportRequest → m Bool
  | [] => return true
  | report :: rest => do
      match ← host.save report.path report.content with
      | .error error =>
          host.printError s!"error: cannot create '{report.path}': {error.message}\n"
          return false
      | .ok _ =>
          if verbose then
            host.printError s!"{report.label} written to {report.path}\n"
          saveReports host verbose rest

/-- Prints what was found: to the output in plain form, or drawn into the source
to the error output. -/
def printFindings (host : Host m) (request : Request) (source : List Char)
    (result : CheckResult) : m Unit :=
  let diagnostics := result.diagnostics.entries
  if result.foundNothing then host.print "No errors found.\n"
  else if request.plain then
    host.print (String.join (ReportFile.diagnosticLines diagnostics))
  else host.printError (drawnDiagnostics request.input source diagnostics)

/-- Checks the source that was read. -/
def runOnText (host : Host m) (request : Request) (source : List Char) :
    m Outcome := do
  if request.dumpTokens then host.printError (tokenSection source)
  let result := check request.options source
  if request.verbose then
    host.printError (s!"Checking {request.input}\n" ++ checkProgress result)
  if request.dumpTree then host.printError (treeSection result.program)
  printFindings host request source result
  if ← saveReports host request.verbose (reportRequests request result) then
    return if result.foundNothing then .clean else .findings
  else return .failed

/-- Does what was asked for. -/
def run (host : Host m) (request : Request) : m Outcome := do
  match ← host.readText request.input with
  | .ok text => runOnText host request text.toList
  | .error error =>
      host.printError s!"error: cannot read '{request.input}': {error.message}\n"
      return .failed

end

end DeclCheck.CommandLine
