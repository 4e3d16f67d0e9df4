import DeclCheck.Text.Visible

/-!
# Quoted text

A text between double quotes on one line.  Quotes, backslashes and characters
that are not visible are escaped.
-/

namespace DeclCheck.Text

/-- A character as it is written between quotes.  Some that are not visible have
a letter of their own, the others are written by number. -/
def escaped (c : Char) : List Char :=
  if c = '"' then ['\\', '"']
  else if c = '\\' then ['\\', '\\']
  else if c = '\n' then ['\\', 'n']
  else if c = '\t' then ['\\', 't']
  else if c = '\r' then ['\\', 'r']
  else if c = '\x00' then ['\\', '0']
  else if isVisible c then [c]
  else ['\\', 'u', '\x7b'] ++ Nat.toDigits 16 c.toNat ++ ['\x7d']

def quoted (text : String) : String :=
  String.ofList ('"' :: (text.toList.flatMap escaped ++ ['"']))

end DeclCheck.Text
