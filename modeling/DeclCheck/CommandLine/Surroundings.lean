import DeclCheck.CommandLine.Host

/-!
# Files in memory

The command works in one folder.  A path can also name the folders above it and
the root of the file system, and files in any of these.  No folder lies below
another one, so a path goes down by one step at most.
-/

namespace DeclCheck.CommandLine

/-- A folder that a path can name. -/
inductive Location where
  | above (levels : Nat)
  | root
  deriving DecidableEq, Repr

namespace Location

/-- The folder that the command works in. -/
def here : Location := above 0

def parent : Location → Location
  | above levels => above (levels + 1)
  | root => root

/-- Where a path starts. -/
def start (path : String) : Location :=
  if path.startsWith "/" then root else here

end Location

/-- What a path names: a folder, or a name in one, with or without a file. -/
inductive Place where
  | folder (location : Location)
  | entry (location : Location) (name : String)
  deriving DecidableEq, Repr

/-- The greatest number of bytes in one step of a path. -/
def nameLimit : Nat := 255

/-- The greatest number of bytes in a path. -/
def pathLimit : Nat := 4095

/-- The files around the command, and what it has printed. -/
structure Surroundings where
  files : List (Place × ByteArray) := []
  output : String := ""
  errorOutput : String := ""

namespace Surroundings

/-- The content of the file at a place. -/
def contentAt (surroundings : Surroundings) : Place → Except FileError ByteArray
  | .folder _ => .error .isFolder
  | .entry location name =>
      if nameLimit < name.utf8ByteSize then .error .nameTooLong
      else
        match surroundings.files.lookup (.entry location name) with
        | some bytes => .ok bytes
        | none => .error .notFound

/-- Takes one step of a path.  An empty step or a single dot stays in the
folder; no step leads on from a file. -/
def step (surroundings : Surroundings) : Place → String → Except FileError Place
  | .folder location, name =>
      if name = "" || name = "." then .ok (.folder location)
      else if name = ".." then .ok (.folder location.parent)
      else .ok (.entry location name)
  | .entry location name, _ =>
      match surroundings.contentAt (.entry location name) with
      | .ok _ => .error .notFolder
      | .error error => .error error

/-- Takes the steps of a path one after the other. -/
def walk (surroundings : Surroundings) : Place → List String → Except FileError Place
  | place, [] => .ok place
  | place, name :: rest => do
      let next ← surroundings.step place name
      surroundings.walk next rest

/-- What a path names, given its steps. -/
def resolve (surroundings : Surroundings) (path : String) (steps : List String) :
    Except FileError Place :=
  if path.isEmpty then .error .notFound
  else if pathLimit < path.utf8ByteSize then .error .nameTooLong
  else surroundings.walk (.folder (.start path)) steps

def readText (surroundings : Surroundings) (path : String) :
    Except FileError String := do
  let place ← surroundings.resolve path (path.splitOn "/")
  decodeText (← surroundings.contentAt place)

/-- The surroundings with a file saved, in the place of any older one. -/
def withFile (surroundings : Surroundings) (place : Place) (content : ByteArray) :
    Surroundings :=
  { surroundings with
    files := (place, content) :: surroundings.files.filter (·.1 ≠ place) }

/-- Where a file of the given path is saved.  A path that ends with a slash asks
for a folder, whether there is a file of that name or not. -/
def target (surroundings : Surroundings) (path : String) : Except FileError Place := do
  let steps := path.splitOn "/"
  let named := (steps.reverse.dropWhile (· = "")).reverse
  match ← surroundings.resolve path named with
  | .folder _ => .error .isFolder
  | .entry location name =>
      if named.length < steps.length then .error .isFolder
      else if nameLimit < name.utf8ByteSize then .error .nameTooLong
      else .ok (.entry location name)

/-- Saves a text as a file. -/
def save (surroundings : Surroundings) (path content : String) :
    Except FileError Unit × Surroundings :=
  match surroundings.target path with
  | .error error => (.error error, surroundings)
  | .ok place => (.ok (), surroundings.withFile place content.toUTF8)

/-- The effects of the command on files in memory. -/
def host : Host (StateM Surroundings) where
  readText path := fun surroundings => (surroundings.readText path, surroundings)
  print text := modify fun surroundings =>
    { surroundings with output := surroundings.output ++ text }
  printError text := modify fun surroundings =>
    { surroundings with errorOutput := surroundings.errorOutput ++ text }
  save path content := fun surroundings => surroundings.save path content

end Surroundings

end DeclCheck.CommandLine
