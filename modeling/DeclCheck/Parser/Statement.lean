import DeclCheck.Parser.Expression
import DeclCheck.Program

/-!
# Parsing statements and blocks

A statement that cannot be read costs one error: reading goes on after the next
semicolon, or at the brace that closes the block.
-/

namespace DeclCheck.Parser

/-- The rest of a variable declaration, after its type and name. -/
def variableAfter (type : TypeName) (start : Span) (name : String) :
    Parser VariableDecl := do
  let init ←
    if ← at? .assign then
      let _ ← shift
      some <$> expression
    else pure none
  let stop ← symbol .semicolon
  return { type := type.spelling, name := name, init := init,
           span := start.cover stop }

/-- The declaration of a variable. -/
def variableDecl : Parser VariableDecl := do
  let (type, start) ← typeName
  let (name, _) ← identifier
  variableAfter type start name

/-- A condition between parentheses. -/
def condition : Parser Expr := do
  let _ ← symbol .openParen
  let expr ← expression
  let _ ← symbol .closeParen
  return expr

/-- A conditional statement. -/
def conditional (block : Parser Block) : Parser Stmt := do
  let start := (← shift).span
  let test ← condition
  let onTrue ← block
  if (← peek).kind = .keyword .elseWord then
    let _ ← shift
    let onFalse ← block
    return .ifElse (start.cover onFalse.span) test onTrue onFalse
  else return .ifThen (start.cover onTrue.span) test onTrue

/-- A loop. -/
def whileLoop (block : Parser Block) : Parser Stmt := do
  let start := (← shift).span
  let test ← condition
  let body ← block
  return .loop (start.cover body.span) test body

/-- A return statement, with a value unless the semicolon comes right away. -/
def leave : Parser Stmt := do
  let start := (← shift).span
  let value ← if ← at? .semicolon then pure none else some <$> expression
  let stop ← symbol .semicolon
  return .leave (start.cover stop) value

/-- An expression and its semicolon, with the span of both. -/
def evaluation : Parser (Expr × Span) := do
  let expr ← expression
  let stop ← symbol .semicolon
  return (expr, expr.span.cover stop)

/-- A statement; `block` reads the blocks it may hold. -/
def statement (block : Parser Block) : Parser Stmt := do
  match (← peek).kind with
  | .type _ => return .declare (← variableDecl)
  | .keyword .ifWord => conditional block
  | .keyword .whileWord => whileLoop block
  | .keyword .returnWord => leave
  | .symbol .openBrace => return .nest (← block)
  | _ =>
      let (expr, span) ← evaluation
      return .evaluate span expr

/-- Whether a list of statements ends here: at a closing brace or at the end of
the source. -/
def atBlockEnd (state : ParserState) : Bool :=
  state.current.kind = .symbol .closeBrace || state.current.kind = .eof

/-- Statements up to the end of the block, without those that could not be read.
Each round consumes a token, so `bound` rounds are enough for as many tokens. -/
def statementsWithin (statement : Parser Stmt) :
    Nat → ParserState → List Stmt × ParserState
  | 0, state => ([], state)
  | bound + 1, state =>
      if atBlockEnd state then ([], state)
      else
        let (read, after) := recover statement state
        let (rest, last) := statementsWithin statement bound after
        (read.toList ++ rest, last)

/-- Statements up to the end of the block.  They never fail. -/
def statements (statement : Parser Stmt) : Parser (List Stmt) := fun state =>
  let (stmts, after) := statementsWithin statement state.tokens.length state
  .ok stmts after

/-- Statements between braces. -/
def braced (statement : Parser Stmt) : Parser Block := do
  let start ← symbol .openBrace
  let stmts ← statements statement
  let stop ← symbol .closeBrace
  return .mk (start.cover stop) stmts

/-- A block that holds at most `levels` more blocks inside each other. -/
def blockWithin : Nat → Parser Block
  | 0 => tooDeep .block
  | levels + 1 =>
      budgeted constructCost .block (braced (statement (blockWithin levels)))

/-- A block.  The nesting budget is spent before the levels are. -/
def block : Parser Block :=
  blockWithin (nestingBudget / constructCost)

end DeclCheck.Parser
