import DeclCheck.Diagnostic
import DeclCheck.Listing
import DeclCheck.Text.WhiteSpace

/-!
# Report files

A report is a list of lines.  Its text is their concatenation, and to write it
into a sink is to write line after line.
-/

namespace DeclCheck.ReportFile

/-- The line after every entry of a listing. -/
def separator : String := "----------------------"

/-- One line per diagnostic, in recorded order. -/
def diagnosticLines (diagnostics : List Diagnostic) : List String :=
  diagnostics.map fun diagnostic => diagnostic.text ++ "\n"

/-- Every entry without the white space at its end, followed by a separator. -/
def listingLines (entries : List String) : List String :=
  entries.flatMap fun entry =>
    [String.ofList (Text.trimEnd entry.toList) ++ "\n", separator ++ "\n"]

/-- The report that lists the functions of a program. -/
def functionLines (program : Program) : List String :=
  listingLines (program.functionEntries.map FunctionEntry.text)

/-- The report that lists the global variables of a program. -/
def globalLines (program : Program) : List String :=
  listingLines (program.globalEntries.map GlobalEntry.text)

end DeclCheck.ReportFile
