import DeclCheck.Token

/-!
# Reading tokens from a source text

`scan` says what stands at the head of a text and how many characters of it
belong together.  Cutting a source with `scan` again and again gives its
pieces; `lex` keeps the pieces that are not layout, with their spans.  Text that
is no token is an error of its own and never stops the reading.
-/

namespace DeclCheck

/-- Text that is no token. -/
structure LexError where
  text : String
  span : Span
  deriving DecidableEq, Repr

namespace LexError

def message (error : LexError) : String :=
  s!"unexpected character '{error.text}'"

/-- The message with the place it is about. -/
def report (error : LexError) : String :=
  s!"Lexer error at {error.span.text}: {error.message}"

end LexError

/-- What stands at the head of a text. -/
inductive Reading where
  | layout
  | token (kind : TokenKind)
  | unreadable
  deriving DecidableEq, Repr

namespace Lexer

/-- The blanks between tokens: space, tab, newline, carriage return and form
feed, and no other. -/
def isBlank (c : Char) : Bool :=
  c = ' ' || c = '\t' || c = '\n' || c = '\r' || c = '\x0c'

/-- ASCII letters and the underscore. -/
def isWordStart (c : Char) : Bool :=
  c.isAlpha || c = '_'

def isWordChar (c : Char) : Bool :=
  c.isAlphanum || c = '_'

/-- The number of characters through the first `*/` of a text. -/
def commentLength : List Char → Option Nat
  | [] => none
  | c :: rest =>
      if c = '*' ∧ rest.head? = some '/' then some 2
      else (commentLength rest).map (· + 1)

def digitCount (text : List Char) : Nat :=
  (text.takeWhile Char.isDigit).length

/-- The length of an optional sign. -/
def signLength : List Char → Nat
  | [] => 0
  | c :: _ => if c = '+' ∨ c = '-' then 1 else 0

/-- The length of an exponent at the head of a text, 0 if there is none: an
`e`, an optional sign and at least one digit. -/
def exponentLength : List Char → Nat
  | [] => 0
  | c :: rest =>
      let sign := signLength rest
      let digits := digitCount (rest.drop sign)
      if (c = 'e' ∨ c = 'E') ∧ digits ≠ 0 then 1 + sign + digits else 0

/-- The length of a fraction at the head of a text, 0 if there is none: a point
and at least one digit, and an exponent if one follows. -/
def fractionLength : List Char → Nat
  | [] => 0
  | c :: rest =>
      let digits := digitCount rest
      if c = '.' ∧ digits ≠ 0 then
        1 + digits + exponentLength (rest.drop digits)
      else 0

/-- A number: digits, which a fraction makes a float. -/
def scanNumber (text : List Char) : Reading × Nat :=
  let whole := digitCount text
  let fraction := fractionLength (text.drop whole)
  let spelling := String.ofList (text.take (whole + fraction))
  (.token (if fraction = 0 then .integer spelling else .float spelling),
    whole + fraction)

/-- The number of characters before the end of a quoted text: the longest run
of plain characters and of backslashes with the character they escape.  No
newline belongs to it. -/
def quotedLength : List Char → Nat
  | [] => 0
  | [c] => if c = '"' ∨ c = '\\' ∨ c = '\n' then 0 else 1
  | c :: d :: rest =>
      if c = '\\' then if d = '\n' then 0 else 2 + quotedLength rest
      else if c = '"' ∨ c = '\n' then 0
      else 1 + quotedLength (d :: rest)

/-- A quoted text with both its quotes.  Without the closing quote, the opening
one and the run after it are unreadable. -/
def scanQuoted (text : List Char) : Reading × Nat :=
  let inner := quotedLength (text.drop 1)
  if (text.drop (inner + 1)).head? = some '"' then
    (.token (.string (String.ofList (text.take (inner + 2)))), inner + 2)
  else (.unreadable, inner + 1)

/-- What stands at the head of a text, and how many characters it takes.  A
block comment without an end makes the whole text unreadable. -/
def scan (text : List Char) : Reading × Nat :=
  match text with
  | [] => (.layout, 0)
  | c :: rest =>
      if isBlank c then (.layout, (text.takeWhile isBlank).length)
      else if c = '/' ∧ rest.head? = some '/' then
        (.layout, (text.takeWhile (· ≠ '\n')).length)
      else if c = '/' ∧ rest.head? = some '*' then
        match commentLength (rest.drop 1) with
        | some length => (.layout, length + 2)
        | none => (.unreadable, text.length)
      else if isWordStart c then
        let word := text.takeWhile isWordChar
        (.token (.ofWord word), word.length)
      else if c.isDigit then scanNumber text
      else if c = '"' then scanQuoted text
      else
        match Symbol.all.find? (·.chars.isPrefixOf text) with
        | some symbol => (.token (.symbol symbol), symbol.chars.length)
        | none => (.unreadable, 1)

end Lexer

/-- A run of source characters that belong together. -/
structure Piece where
  reading : Reading
  text : List Char
  deriving DecidableEq, Repr

namespace Lexer

/-- Cuts at most `bound` pieces from a text. -/
def piecesWithin : Nat → List Char → List Piece
  | 0, _ => []
  | _, [] => []
  | bound + 1, text =>
      let (reading, length) := scan text
      { reading := reading, text := text.take length } ::
        piecesWithin bound (text.drop length)

/-- The pieces of a text, in order.  Each takes at least one character, so there
are no more of them than characters. -/
def pieces (text : List Char) : List Piece :=
  piecesWithin text.length text

/-- The tokens and errors among some pieces, the first of which starts at
`offset`. -/
def place (table : LineTable) : Nat → List Piece → List (Except LexError Token)
  | _, [] => []
  | offset, piece :: rest =>
      let stop := offset + byteLength piece.text
      let span := table.span offset stop
      match piece.reading with
      | .layout => place table stop rest
      | .token kind => .ok { kind := kind, span := span } :: place table stop rest
      | .unreadable =>
          .error { text := String.ofList piece.text, span := span } ::
            place table stop rest

end Lexer

/-- Everything in a source text that is not layout, in order: tokens, and text
that is none. -/
def lex (source : List Char) : List (Except LexError Token) :=
  Lexer.place (LineTable.ofText source) 0 (Lexer.pieces source)

/-- The empty span at the end of a source text. -/
def endSpan (source : List Char) : Span :=
  (LineTable.ofText source).span (byteLength source) (byteLength source)

/-- The good tokens among the results of reading a source text. -/
def goodTokens (results : List (Except LexError Token)) : List Token :=
  results.filterMap Except.toOption

/-- The errors among the results of reading a source text. -/
def lexErrors (results : List (Except LexError Token)) : List LexError :=
  results.filterMap fun
    | .error error => some error
    | .ok _ => none

/-- A source text that is read one result at a time.  When nothing is pending it
answers with the end of the source, as often as it is asked. -/
structure TokenStream where
  pending : List (Except LexError Token)
  endSpan : Span

namespace TokenStream

def ofSource (source : List Char) : TokenStream where
  pending := lex source
  endSpan := DeclCheck.endSpan source

def endToken (stream : TokenStream) : Token where
  kind := .eof
  span := stream.endSpan

def next (stream : TokenStream) : Except LexError Token × TokenStream :=
  match stream.pending with
  | [] => (.ok stream.endToken, stream)
  | result :: rest => (result, { stream with pending := rest })

/-- All tokens, the end of the source included, or the first error. -/
def tokens (stream : TokenStream) : Except LexError (List Token) := do
  let tokens ← stream.pending.mapM id
  return tokens ++ [stream.endToken]

/-- One line for a result: the position and name of a token, or the report of an
error. -/
def line : Except LexError Token → String
  | .ok token => s!"{token.span.line}:{token.span.column} {token.kind.shown}\n"
  | .error error => error.report ++ "\n"

/-- The lines of all results, the end of the source included. -/
def dump (stream : TokenStream) : String :=
  String.join ((stream.pending.map line) ++ [line (.ok stream.endToken)])

end TokenStream

end DeclCheck
