import DeclCheck.Position

/-!
# Tokens

A token is a kind together with the span it was read from.  The fixed words and
symbols are finite types with one spelling each; the four kinds with a text of
their own carry it as it stands in the source, quotes included.
-/

namespace DeclCheck

/-- The words that name a type. -/
inductive TypeName where
  | int
  | float
  | double
  | string
  | bool
  | char
  | void
  deriving DecidableEq, Repr

namespace TypeName

def chars : TypeName → List Char
  | int => ['i', 'n', 't']
  | float => ['f', 'l', 'o', 'a', 't']
  | double => ['d', 'o', 'u', 'b', 'l', 'e']
  | string => ['s', 't', 'r', 'i', 'n', 'g']
  | bool => ['b', 'o', 'o', 'l']
  | char => ['c', 'h', 'a', 'r']
  | void => ['v', 'o', 'i', 'd']

def all : List TypeName :=
  [int, float, double, string, bool, char, void]

def spelling (name : TypeName) : String :=
  String.ofList name.chars

end TypeName

/-- The reserved words that name no type. -/
inductive Keyword where
  | ifWord
  | elseWord
  | whileWord
  | returnWord
  | trueWord
  | falseWord
  deriving DecidableEq, Repr

namespace Keyword

def chars : Keyword → List Char
  | ifWord => ['i', 'f']
  | elseWord => ['e', 'l', 's', 'e']
  | whileWord => ['w', 'h', 'i', 'l', 'e']
  | returnWord => ['r', 'e', 't', 'u', 'r', 'n']
  | trueWord => ['t', 'r', 'u', 'e']
  | falseWord => ['f', 'a', 'l', 's', 'e']

def all : List Keyword :=
  [ifWord, elseWord, whileWord, returnWord, trueWord, falseWord]

def spelling (word : Keyword) : String :=
  String.ofList word.chars

end Keyword

/-- Operators and punctuation. -/
inductive Symbol where
  | equal
  | notEqual
  | lessEqual
  | greaterEqual
  | andAnd
  | orOr
  | plus
  | minus
  | star
  | slash
  | percent
  | assign
  | less
  | greater
  | bang
  | openParen
  | closeParen
  | openBrace
  | closeBrace
  | semicolon
  | comma
  deriving DecidableEq, Repr

namespace Symbol

def chars : Symbol → List Char
  | equal => ['=', '=']
  | notEqual => ['!', '=']
  | lessEqual => ['<', '=']
  | greaterEqual => ['>', '=']
  | andAnd => ['&', '&']
  | orOr => ['|', '|']
  | plus => ['+']
  | minus => ['-']
  | star => ['*']
  | slash => ['/']
  | percent => ['%']
  | assign => ['=']
  | less => ['<']
  | greater => ['>']
  | bang => ['!']
  | openParen => ['(']
  | closeParen => [')']
  | openBrace => ['\x7b']
  | closeBrace => ['\x7d']
  | semicolon => [';']
  | comma => [',']

/-- Every symbol, the longer ones first: the first one that a text starts with
is the longest one it starts with. -/
def all : List Symbol :=
  [equal, notEqual, lessEqual, greaterEqual, andAnd, orOr, plus, minus, star,
    slash, percent, assign, less, greater, bang, openParen, closeParen,
    openBrace, closeBrace, semicolon, comma]

def spelling (symbol : Symbol) : String :=
  String.ofList symbol.chars

end Symbol

/-- What a token is, without where it stands.  `eof` stands for the end of the
source. -/
inductive TokenKind where
  | type (name : TypeName)
  | keyword (word : Keyword)
  | identifier (name : String)
  | integer (text : String)
  | float (text : String)
  | string (text : String)
  | symbol (mark : Symbol)
  | eof
  deriving DecidableEq, Repr

namespace TokenKind

/-- The text of the token in the source. -/
def spelling : TokenKind → String
  | type name => name.spelling
  | keyword word => word.spelling
  | identifier name => name
  | integer text => text
  | float text => text
  | string text => text
  | symbol mark => mark.spelling
  | eof => ""

/-- How messages name the token. -/
def shown : TokenKind → String
  | identifier name => s!"identifier '{name}'"
  | integer text => s!"integer '{text}'"
  | float text => s!"float '{text}'"
  | string text => s!"string {text}"
  | eof => "end of file"
  | kind => s!"'{kind.spelling}'"

/-- The name of the type, for the words that name one. -/
def typeName? : TokenKind → Option TypeName
  | type name => some name
  | _ => none

/-- The symbol, for the tokens that are one. -/
def symbol? : TokenKind → Option Symbol
  | symbol mark => some mark
  | _ => none

/-- The kind of a word that starts with a letter or an underscore: a type name,
a keyword, or else an identifier. -/
def ofWord (word : List Char) : TokenKind :=
  match TypeName.all.find? (·.chars == word) with
  | some name => type name
  | none =>
      match Keyword.all.find? (·.chars == word) with
      | some reserved => keyword reserved
      | none => identifier (String.ofList word)

end TokenKind

/-- A token and the region of the source that it takes. -/
structure Token where
  kind : TokenKind
  span : Span
  deriving DecidableEq, Repr

end DeclCheck
