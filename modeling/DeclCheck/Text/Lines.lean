/-!
# Lines of a text

Two ways to divide a text: at every newline, which gives one more line than
there are newlines, and by line endings, where a final newline ends the last
line instead of beginning another one.
-/

namespace DeclCheck.Text

/-- The parts of a text between its newlines. -/
def splitAtNewlines : List Char → List (List Char)
  | [] => [[]]
  | c :: rest =>
      if c = '\n' then [] :: splitAtNewlines rest
      else
        match splitAtNewlines rest with
        | [] => [[c]]
        | first :: others => (c :: first) :: others

/-- A text without the characters of a class at its end. -/
def dropEnding (isDropped : Char → Bool) (text : List Char) : List Char :=
  (text.reverse.dropWhile isDropped).reverse

/-- A line without a carriage return at its end. -/
def dropCarriageReturn (line : List Char) : List Char :=
  if line.getLast? = some '\r' then line.dropLast else line

/-- The lines of a text without their endings, which are a newline or a carriage
return and a newline.  What follows the last newline is a line only if it is not
empty, and keeps a carriage return at its end. -/
def linesOf (text : List Char) : List (List Char) :=
  let parts := splitAtNewlines text
  let ended := parts.dropLast.map dropCarriageReturn
  match parts.getLast? with
  | some (c :: rest) => ended ++ [c :: rest]
  | _ => ended

end DeclCheck.Text
