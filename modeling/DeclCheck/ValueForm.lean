/-!
# Initial values by their text

Whether an initial value suits a declared type is decided by the compact text of
the value alone: nothing is evaluated, no name is looked up and no range is
checked.
-/

namespace DeclCheck

/-- The form that the text of a value must have. -/
inductive ValueForm where
  | integer
  | decimal
  | quoted
  | unsupported
  deriving DecidableEq, Repr

namespace ValueForm

/-- The form that a declared type asks for. -/
def ofType (type : String) : ValueForm :=
  match type with
  | "int" => integer
  | "float" => decimal
  | "double" => decimal
  | "string" => quoted
  | _ => unsupported

/-- A text without its leading sign, if it has one. -/
def dropSign : List Char → List Char
  | [] => []
  | c :: rest => if c = '+' ∨ c = '-' then rest else c :: rest

/-- One or more decimal digits, and nothing else. -/
def isDigits (text : List Char) : Bool :=
  !text.isEmpty && text.all Char.isDigit

/-- Nothing, or an exponent: an `e`, an optional sign and digits. -/
def isExponent : List Char → Bool
  | [] => true
  | c :: rest => (c = 'e' || c = 'E') && isDigits (dropSign rest)

/-- A decimal number without its sign: digits with at most one point among or
around them, then an optional exponent. -/
def isMagnitude (text : List Char) : Bool :=
  let whole := text.takeWhile Char.isDigit
  let rest := text.dropWhile Char.isDigit
  match rest with
  | '.' :: fraction =>
      (!whole.isEmpty || !(fraction.takeWhile Char.isDigit).isEmpty) &&
        isExponent (fraction.dropWhile Char.isDigit)
  | _ => !whole.isEmpty && isExponent rest

/-- A text that begins and ends with a quote, and not with the same one. -/
def isQuoted (text : List Char) : Bool :=
  2 ≤ text.length && text.head? = some '"' && text.getLast? = some '"'

def accepts (form : ValueForm) (text : String) : Bool :=
  match form with
  | integer => isDigits (dropSign text.toList)
  | decimal => isMagnitude (dropSign text.toList)
  | quoted => isQuoted text.toList
  | unsupported => false

end ValueForm

/-- Whether a text can be the initial value of a variable of the given type. -/
def suits (type text : String) : Bool :=
  (ValueForm.ofType type).accepts text

end DeclCheck
