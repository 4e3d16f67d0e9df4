import DeclCheck.Program

/-!
# Listings of functions and global variables

A listing is taken from the tree alone.  Each entry is a short text; in a
listing file every entry is followed by a line of dashes.
-/

namespace DeclCheck

/-- Whether the characters of `part` stand somewhere in a text, one after the
other. -/
def occursIn (part : List Char) : List Char → Bool
  | [] => part.isEmpty
  | c :: rest => part.isPrefixOf (c :: rest) || occursIn part rest

/-- Whether a function is listed as one that calls itself. -/
inductive CallPattern where
  | recursive
  | iterative
  deriving DecidableEq, Repr

namespace CallPattern

def shown : CallPattern → String
  | recursive => "recursive"
  | iterative => "iterative"

/-- A function counts as recursive if its name occurs anywhere in the compact
text of its body, be it inside a longer name. -/
def ofFunction (function : FunctionDecl) : CallPattern :=
  match function.body with
  | some body =>
      if occursIn function.name.toList body.text.toList then recursive else iterative
  | none => iterative

end CallPattern

/-- A function as it is listed. -/
structure FunctionEntry where
  name : String
  returnType : String
  params : Option String
  pattern : CallPattern
  deriving DecidableEq, Repr

namespace FunctionEntry

def ofFunction (function : FunctionDecl) : FunctionEntry where
  name := function.name
  returnType := function.returnType
  params := function.params.map fun params =>
    String.intercalate ", " (params.map fun param => s!"{param.type} {param.name}")
  pattern := CallPattern.ofFunction function

/-- Four lines, without a line ending after the last. -/
def text (entry : FunctionEntry) : String :=
  let params := entry.params.getD "none"
  s!"Function: {entry.name}\nKind: {entry.pattern.shown}\n" ++
    s!"Return type: {entry.returnType}\nParameters: {params}"

end FunctionEntry

/-- A global variable as it is listed. -/
structure GlobalEntry where
  type : String
  name : String
  value : Option String
  deriving DecidableEq, Repr

namespace GlobalEntry

def ofVariable (decl : VariableDecl) : GlobalEntry where
  type := decl.type
  name := decl.name
  value := decl.init.map Expr.text

/-- One line, without a line ending. -/
def text (entry : GlobalEntry) : String :=
  let value := entry.value.getD "null"
  s!"<Type: {entry.type}, Name: {entry.name}, Value: {value}>"

end GlobalEntry

namespace Program

def functionEntries (program : Program) : List FunctionEntry :=
  program.functions.map FunctionEntry.ofFunction

def globalEntries (program : Program) : List GlobalEntry :=
  program.globals.map GlobalEntry.ofVariable

end Program

end DeclCheck
