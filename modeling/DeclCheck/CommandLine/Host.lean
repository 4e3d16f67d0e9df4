/-!
# What the command needs from its surroundings

The command reads one file, prints to two streams and saves files.  A host
provides these effects in some monad, so that the same command can run on the
real file system or on files in memory.
-/

namespace DeclCheck.CommandLine

/-- Why a file could not be read or created. -/
inductive FileError where
  | notFound
  | isFolder
  | notFolder
  | nameTooLong
  | notText
  | other (text : String)
  deriving DecidableEq, Repr

namespace FileError

def message : FileError → String
  | notFound => "No such file or directory (os error 2)"
  | isFolder => "Is a directory (os error 21)"
  | notFolder => "Not a directory (os error 20)"
  | nameTooLong => "File name too long (os error 36)"
  | notText => "stream did not contain valid UTF-8"
  | other text => text

end FileError

/-- The effects that the command uses. -/
structure Host (m : Type → Type) where
  readText : String → m (Except FileError String)
  print : String → m Unit
  printError : String → m Unit
  save : String → String → m (Except FileError Unit)

/-- The text that some bytes spell in UTF-8. -/
def decodeText (bytes : ByteArray) : Except FileError String :=
  match String.fromUTF8? bytes with
  | some text => .ok text
  | none => .error .notText

end DeclCheck.CommandLine
