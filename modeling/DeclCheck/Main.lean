import DeclCheck.CommandLine.Command

/-!
# The program

Runs the command on the real file system.
-/

namespace DeclCheck.CommandLine

/-- The cause of a failed file operation.  The number tells a folder from a file
that was entered like one, and a name that is too long from other wrong names. -/
def fileError : IO.Error → FileError
  | .noFileOrDirectory .. => .notFound
  | .inappropriateType _ code details | .invalidArgument _ code details
  | .permissionDenied _ code details | .resourceExhausted _ code details
  | .noSuchThing _ code details | .otherError code details =>
      if code = 20 then .notFolder
      else if code = 21 then .isFolder
      else if code = 36 then .nameTooLong
      else .other s!"{details} (os error {code})"
  | error => .other (toString error)

def systemHost : Host IO where
  readText path := do
    try
      let file ← IO.FS.Handle.mk path .read
      return decodeText (← file.readBinToEnd)
    catch error => return .error (fileError error)
  print text := IO.print text
  printError text := IO.eprint text
  save path content := do
    try
      IO.FS.writeFile path content
      return .ok ()
    catch error => return .error (fileError error)

end DeclCheck.CommandLine

def main (arguments : List String) : IO UInt32 := do
  match DeclCheck.CommandLine.Request.ofArguments arguments with
  | .ok request =>
      return (← DeclCheck.CommandLine.run DeclCheck.CommandLine.systemHost request).exitCode
  | .error error =>
      IO.eprintln error.message
      return 2
