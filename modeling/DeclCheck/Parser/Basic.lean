import DeclCheck.Token.Lexer

/-!
# Parsers over good tokens

A parser reads from the good tokens of a source text; text that is no token
never reaches it.  It either succeeds or fails with a syntax error, and in both
cases the state afterwards says what was consumed: nothing is ever put back.

The state also counts nesting.  A construct that may hold itself is read inside
`budgeted`, which spends some of `nestingBudget` and gives it back however the
reading ends.
-/

namespace DeclCheck

/-- What a parser was looking for. -/
inductive Expectation where
  | symbol (mark : Symbol)
  | identifier
  | typeName
  | expression
  deriving DecidableEq, Repr

namespace Expectation

def shown : Expectation → String
  | symbol mark => (TokenKind.symbol mark).shown
  | identifier => "identifier"
  | typeName => "type name"
  | expression => "expression"

end Expectation

/-- The constructs that may hold themselves. -/
inductive Construct where
  | expression
  | block
  deriving DecidableEq, Repr

namespace Construct

def shown : Construct → String
  | expression => "expression"
  | block => "block"

end Construct

namespace SyntaxError

/-- What went wrong. -/
inductive Cause where
  | mismatch (wanted : Expectation) (found : TokenKind)
  | tooDeep (construct : Construct)
  | invalidTarget
  deriving DecidableEq, Repr

end SyntaxError

/-- Why a construct could not be read, and where. -/
structure SyntaxError where
  cause : SyntaxError.Cause
  span : Span
  deriving DecidableEq, Repr

namespace SyntaxError

def message (error : SyntaxError) : String :=
  match error.cause with
  | .mismatch wanted found => s!"expected {wanted.shown}, found {found.shown}"
  | .tooDeep construct => s!"{construct.shown} nested too deeply"
  | .invalidTarget => "invalid assignment target"

/-- The message with the place it is about. -/
def report (error : SyntaxError) : String :=
  s!"Parser error at {error.span.text}: {error.message}"

end SyntaxError

/-- A syntax error together with the token that was next when it came up, which
need not be the token it is about. -/
structure Report where
  error : SyntaxError
  raisedAt : Span
  deriving DecidableEq, Repr

/-- The tokens still to be read, the nesting spent so far, and the errors that
have been recovered from. -/
structure ParserState where
  tokens : List Token
  endSpan : Span
  depth : Nat := 0
  reports : List Report := []

namespace ParserState

/-- The next token, or the end of the source when none is left. -/
def current (state : ParserState) : Token :=
  match state.tokens with
  | token :: _ => token
  | [] => { kind := .eof, span := state.endSpan }

end ParserState

/-- A parser of some construct: it changes the state, and answers the construct or
a syntax error. -/
abbrev Parser := EStateM SyntaxError ParserState

namespace Parser

variable {α : Type}

/-- The nesting budget. -/
def nestingBudget : Nat := 256

/-- What an expression or a block takes from the budget. -/
def constructCost : Nat := 4

/-- What a prefix operator, or one more operand of a chain, takes from the
budget. -/
def operatorCost : Nat := 1

/-- The next token, without consuming it. -/
def peek : Parser Token := fun state =>
  .ok state.current state

/-- Consumes the next token. -/
def shift : Parser Token := fun state =>
  .ok state.current { state with tokens := state.tokens.tail }

/-- The number of tokens left, which bounds any loop that consumes one in each
round. -/
def tokensLeft : Parser Nat := fun state =>
  .ok state.tokens.length state

/-- Whether the next token is the given symbol. -/
def at? (mark : Symbol) : Parser Bool := do
  return (← peek).kind = .symbol mark

/-- Fails at the next token, naming what was wanted in its place. -/
def reject (wanted : Expectation) : Parser α := do
  let found ← peek
  throw { cause := .mismatch wanted found.kind, span := found.span }

/-- Fails at the next token because the nesting budget is spent. -/
def tooDeep (construct : Construct) : Parser α := do
  throw { cause := .tooDeep construct, span := (← peek).span }

/-- Consumes the given symbol and answers its span. -/
def symbol (mark : Symbol) : Parser Span := do
  if ← at? mark then
    return (← shift).span
  else reject (.symbol mark)

/-- Consumes an identifier and answers its name and span. -/
def identifier : Parser (String × Span) := do
  match (← peek).kind with
  | .identifier name => return (name, (← shift).span)
  | _ => reject .identifier

/-- Consumes the name of a type and answers it with its span. -/
def typeName : Parser (TypeName × Span) := do
  match (← peek).kind with
  | .type name => return (name, (← shift).span)
  | _ => reject .typeName

/-- Takes `cost` from the nesting budget, or fails if that much is not left. -/
def spend (cost : Nat) (construct : Construct) : Parser Unit := do
  let state ← get
  if state.depth + cost > nestingBudget then tooDeep construct
  else set { state with depth := state.depth + cost }

/-- Runs a parser and then sets the nesting back to what it was, if the parser
succeeds. -/
def keepingDepth (parser : Parser α) : Parser α := fun state =>
  match parser state with
  | .ok value after => .ok value { after with depth := state.depth }
  | .error error after => .error error after

/-- Runs a parser with `cost` taken from the nesting budget, and gives it back
whether the parser succeeds or fails. -/
def budgeted (cost : Nat) (construct : Construct) (parser : Parser α) :
    Parser α := fun state =>
  match (spend cost construct *> parser) state with
  | .ok value after => .ok value { after with depth := state.depth }
  | .error error after => .error error { after with depth := state.depth }

/-- The rest of a list whose elements are separated by commas: as long as a comma
comes next, the comma and one more element.  At most `bound` of them are read. -/
def moreAfterComma (element : Parser α) : Nat → Parser (List α)
  | 0 => return []
  | bound + 1 => do
      if ← at? .comma then
        let _ ← shift
        let next ← element
        let rest ← moreAfterComma element bound
        return next :: rest
      else return []

/-- One or more elements separated by commas. -/
def separatedByCommas (element : Parser α) : Parser (List α) := do
  let first ← element
  let rest ← moreAfterComma element (← tokensLeft)
  return first :: rest

/-- The tokens from which reading goes on after a failure: those after the next
semicolon, or those from the next closing brace on if it comes first. -/
def resume : List Token → List Token
  | [] => []
  | token :: rest =>
      if token.kind = .symbol .semicolon then rest
      else if token.kind = .symbol .closeBrace then token :: rest
      else resume rest

/-- Runs a parser; if it fails, files the error and moves on to where reading can
resume. -/
def recover (parser : Parser α) (state : ParserState) :
    Option α × ParserState :=
  match parser state with
  | .ok value after => (some value, after)
  | .error error after =>
      let report := { error := error, raisedAt := after.current.span }
      (none, { after with
        tokens := resume after.tokens
        reports := after.reports ++ [report] })

end Parser

end DeclCheck
