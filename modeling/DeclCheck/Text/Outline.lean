/-!
# Outlines

A value written out over several lines, its parts indented under it.  An outline
is a list of lines; the functions below put outlines together.
-/

namespace DeclCheck.Text

abbrev Outline := List String

namespace Outline

/-- A value on one line. -/
def atom (text : String) : Outline :=
  [text]

/-- An outline with a comma after its last line. -/
def withComma : Outline → Outline
  | [] => []
  | [last] => [last ++ ","]
  | first :: rest => first :: withComma rest

/-- An outline with a label before its first line. -/
def labelled (label : String) : Outline → Outline
  | [] => []
  | first :: rest => s!"{label}: {first}" :: rest

/-- An outline as a part of another one: indented, with a comma after it. -/
def part (outline : Outline) : Outline :=
  outline.withComma.map ("    " ++ ·)

/-- Some parts between an opening and a closing line. -/
def enclosed (opening closing : String) (parts : List Outline) : Outline :=
  opening :: (parts.flatMap part ++ [closing])

/-- A named value with labelled fields. -/
def record (name : String) (fields : List (String × Outline)) : Outline :=
  enclosed s!"{name} \x7b" "\x7d" (fields.map fun (label, field) => labelled label field)

/-- A named value around another one. -/
def wrapped (name : String) (inner : Outline) : Outline :=
  enclosed s!"{name}(" ")" [inner]

/-- A sequence, which takes one line if it is empty. -/
def sequence (entries : List Outline) : Outline :=
  if entries.isEmpty then atom "[]" else enclosed "[" "]" entries

/-- A value that may be missing. -/
def optional : Option Outline → Outline
  | some inner => wrapped "Some" inner
  | none => atom "None"

/-- The lines of an outline, each with its line ending. -/
def text (outline : Outline) : String :=
  String.join (outline.map (· ++ "\n"))

end Outline

end DeclCheck.Text
