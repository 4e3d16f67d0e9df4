import DeclCheck.Parser.Statement

/-!
# Parsing a whole source text

Items are read until the tokens run out.  The result is a program together with
all errors: those of the lexer and those of the parser, in the order in which a
reader who holds one token of look-ahead comes across them.
-/

namespace DeclCheck

/-- An error in the source text itself, as opposed to one in what it says. -/
inductive SourceError where
  | lexical (error : LexError)
  | syntactic (error : SyntaxError)
  deriving DecidableEq, Repr

namespace SourceError

def span : SourceError → Span
  | lexical error => error.span
  | syntactic error => error.span

def message : SourceError → String
  | lexical error => error.message
  | syntactic error => error.message

/-- The message with the place it is about. -/
def report : SourceError → String
  | lexical error => error.report
  | syntactic error => error.report

end SourceError

namespace Parser

/-- A parameter: a type and a name. -/
def parameter : Parser Parameter := do
  let (type, start) ← typeName
  let (name, stop) ← identifier
  return { type := type.spelling, name := name, span := start.cover stop }

/-- The rest of a function, after its return type and name.  Nothing between the
parentheses means that there is no parameter list. -/
def functionAfter (type : TypeName) (start : Span) (name : String) :
    Parser FunctionDecl := do
  let _ ← symbol .openParen
  let params ←
    if ← at? .closeParen then pure none
    else some <$> separatedByCommas parameter
  let _ ← symbol .closeParen
  let body ← block
  return { returnType := type.spelling, name := name, params := params,
           body := some body, span := start.cover body.span }

/-- A declaration: a function if a parenthesis follows the name, otherwise a
global variable. -/
def declaration : Parser Item := do
  let (type, start) ← typeName
  let (name, _) ← identifier
  if ← at? .openParen then
    return .function (← functionAfter type start name)
  else return .global (← variableAfter type start name)

/-- What may stand at the top level: a declaration or an expression. -/
def item : Parser Item := do
  match (← peek).kind with
  | .type _ => declaration
  | _ =>
      let (expr, span) ← evaluation
      return .expression span expr

/-- A closing brace at the top level closes nothing and is dropped. -/
def dropCloseBrace : List Token → List Token
  | [] => []
  | token :: rest =>
      if token.kind = .symbol .closeBrace then rest else token :: rest

/-- One round of reading items: the item, or nothing if it could not be read. -/
def itemStep (state : ParserState) : Option Item × ParserState :=
  match recover item state with
  | (some read, after) => (some read, after)
  | (none, after) => (none, { after with tokens := dropCloseBrace after.tokens })

/-- Items up to the end of the source, without those that could not be read.
Each round consumes a token, so `bound` rounds are enough for as many tokens. -/
def itemsWithin : Nat → ParserState → List Item × ParserState
  | 0, state => ([], state)
  | bound + 1, state =>
      if state.current.kind = .eof then ([], state)
      else
        let (read, after) := itemStep state
        let (rest, last) := itemsWithin bound after
        (read.toList ++ rest, last)

/-- The items of a sequence of tokens, and the state in which reading them
ends. -/
def items (tokens : List Token) (endSpan : Span) : List Item × ParserState :=
  itemsWithin tokens.length { tokens := tokens, endSpan := endSpan }

/-- All errors in order: a syntax error comes after the lexical errors that stand
before the token at which it was raised. -/
def interleave : List LexError → List Report → List SourceError
  | lexical, [] => lexical.map .lexical
  | lexical, report :: reports =>
      let passed := lexical.takeWhile (·.span.start < report.raisedAt.start)
      let ahead := lexical.dropWhile (·.span.start < report.raisedAt.start)
      passed.map .lexical ++ .syntactic report.error :: interleave ahead reports

end Parser

/-- What a source text says, as far as it could be read, and what is wrong with
its form. -/
structure Parse where
  program : Program
  errors : List SourceError

/-- Reads a source text. -/
def parse (source : List Char) : Parse :=
  let results := lex source
  let (items, final) := Parser.items (goodTokens results) (endSpan source)
  { program := { items := items }
    errors := Parser.interleave (lexErrors results) final.reports }

end DeclCheck
