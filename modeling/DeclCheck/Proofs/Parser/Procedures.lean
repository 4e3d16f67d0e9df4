import DeclCheck.Proofs.Parser.Completeness
import DeclCheck.Proofs.Parser.Progress
import DeclCheck.Proofs.Parser.Script

/-!
# The procedures of the parser

The parser as a set of procedures that call each other, each with its own steps.  Nothing
here is bounded: a loop calls itself for its next round, and a construct that may hold
itself calls itself.
-/

namespace DeclCheck.Parser

/-- The levels of nesting that the parsers provide for. -/
abbrev nestingLevels : Nat := nestingBudget / constructCost

/-- The procedures, the loosest constructs first.  A list of items or statements, the rest
of a list with commas and the rest of a chain are loops: each is read in rounds. -/
inductive Procedure where
  | items
  | item
  | declaration
  | functionAfter (type : TypeName) (start : Span) (name : String)
  | parameter
  | moreParameters
  | statements
  | statement
  | conditional
  | whileLoop
  | block
  | braced
  | leave
  | variableDecl
  | variableAfter (type : TypeName) (start : Span) (name : String)
  | condition
  | evaluation
  | arguments
  | moreArguments
  | expression
  | assignment
  | chain (level : Precedence)
  | chainAfter (level : Precedence) (left : Expr)
  | unary
  | primary
  | reference (name : String)
  | parenthesized

namespace Procedure

/-- What a procedure answers. -/
@[reducible]
def Answer : Procedure → Type
  | items => List Item
  | item => Item
  | declaration => Item
  | functionAfter _ _ _ => FunctionDecl
  | parameter => Parameter
  | moreParameters => List Parameter
  | statements => List Stmt
  | statement => Stmt
  | conditional => Stmt
  | whileLoop => Stmt
  | block => Block
  | braced => Block
  | leave => Stmt
  | variableDecl => VariableDecl
  | variableAfter _ _ _ => VariableDecl
  | condition => Expr
  | evaluation => Expr × Span
  | arguments => List Expr × Span
  | moreArguments => List Expr
  | expression => Expr
  | assignment => Expr
  | chain _ => Expr
  | chainAfter _ _ => Expr
  | unary => Expr
  | primary => Expr
  | reference _ => Expr
  | parenthesized => Expr

end Procedure

/-! ## Steps -/

namespace Script

section Basic

variable {Procedure : Type} {Answer : Procedure → Type} {α : Type}

def at? (mark : Symbol) : Script Answer Bool := do
  return (← peek).kind = .symbol mark

def reject (wanted : Expectation) : Script Answer α := do
  let found ← peek
  fail { cause := .mismatch wanted found.kind, span := found.span }

def symbol (mark : Symbol) : Script Answer Span := do
  if ← at? mark then
    return (← shift).span
  else reject (.symbol mark)

def identifier : Script Answer (String × Span) := do
  match (← peek).kind with
  | .identifier name => return (name, (← shift).span)
  | _ => reject .identifier

def typeName : Script Answer (TypeName × Span) := do
  match (← peek).kind with
  | .type name => return (name, (← shift).span)
  | _ => reject .typeName

def separatedByCommas (element : Script Answer α) (more : Script Answer (List α)) :
    Script Answer (List α) := do
  let first ← element
  let rest ← more
  return first :: rest

/-- A round of a list with commas. -/
def afterComma (element : Script Answer α) (more : Script Answer (List α)) :
    Script Answer (List α) := do
  if ← at? .comma then
    let _ ← shift
    let next ← element
    let rest ← more
    return next :: rest
  else return []

end Basic

open Procedure (Answer)

/-- Calls a procedure of the parser. -/
abbrev invoke (procedure : Procedure) : Script Answer procedure.Answer :=
  call procedure

/-- What the operands of a level are: chains of the next tighter level. -/
def operand : Precedence → Script Answer Expr
  | .disjunction => invoke (.chain .conjunction)
  | .conjunction => invoke (.chain .equality)
  | .equality => invoke (.chain .comparison)
  | .comparison => invoke (.chain .sum)
  | .sum => invoke (.chain .product)
  | .product => invoke .unary

def chain (level : Precedence) : Script Answer Expr :=
  keepingDepth do
    let first ← operand level
    invoke (.chainAfter level first)

/-- A round of a chain. -/
def chainAfter (level : Precedence) (left : Expr) : Script Answer Expr := do
  match operator? level (← peek).kind with
  | none => return left
  | some op =>
      let _ ← shift
      spend operatorCost .expression
      let right ← operand level
      invoke (.chainAfter level (.binary (left.span.cover right.span) op left right))

def unary : Script Answer Expr := do
  match (← peek).kind.symbol?.bind UnaryOp.ofSymbol? with
  | none => invoke .primary
  | some op =>
      let start ← shift
      let operand : Expr ← budgeted operatorCost .expression (invoke .unary)
      return .unary (start.span.cover operand.span) op operand

def arguments : Script Answer (List Expr × Span) := do
  let args ←
    if ← at? .closeParen then pure []
    else separatedByCommas (invoke .expression) (invoke .moreArguments)
  return (args, ← symbol .closeParen)

def reference (name : String) : Script Answer Expr := do
  let start := (← shift).span
  if ← at? .openParen then
    let _ ← shift
    let (args, stop) ← invoke .arguments
    return .call (start.cover stop) name args
  else return .identifier start name

def parenthesized : Script Answer Expr := do
  let start ← symbol .openParen
  let inner ← invoke .expression
  let stop ← symbol .closeParen
  return .paren (start.cover stop) inner

def primary : Script Answer Expr := do
  match (← peek).kind with
  | .integer text => return .integer (← shift).span text
  | .float text => return .float (← shift).span text
  | .string text => return .string (← shift).span text
  | .keyword .trueWord => return .boolean (← shift).span true
  | .keyword .falseWord => return .boolean (← shift).span false
  | .identifier name => invoke (.reference name)
  | .symbol .openParen => invoke .parenthesized
  | _ => reject .expression

def assignment : Script Answer Expr := do
  let left : Expr ← invoke (.chain .disjunction)
  if ← at? .assign then
    match left with
    | .identifier start name =>
        let _ ← shift
        let value : Expr ← invoke .expression
        return .assign (start.cover value.span) name value
    | _ => fail { cause := .invalidTarget, span := left.span }
  else return left

def variableAfter (type : TypeName) (start : Span) (name : String) :
    Script Answer VariableDecl := do
  let init ←
    if ← at? .assign then
      let _ ← shift
      some <$> invoke .expression
    else pure none
  let stop ← symbol .semicolon
  return { type := type.spelling, name := name, init := init,
           span := start.cover stop }

def variableDecl : Script Answer VariableDecl := do
  let (type, start) ← typeName
  let (name, _) ← identifier
  invoke (.variableAfter type start name)

def condition : Script Answer Expr := do
  let _ ← symbol .openParen
  let expr ← invoke .expression
  let _ ← symbol .closeParen
  return expr

def conditional : Script Answer Stmt := do
  let start := (← shift).span
  let test ← invoke .condition
  let onTrue : Block ← invoke .block
  if (← peek).kind = .keyword .elseWord then
    let _ ← shift
    let onFalse : Block ← invoke .block
    return .ifElse (start.cover onFalse.span) test onTrue onFalse
  else return .ifThen (start.cover onTrue.span) test onTrue

def whileLoop : Script Answer Stmt := do
  let start := (← shift).span
  let test ← invoke .condition
  let body : Block ← invoke .block
  return .loop (start.cover body.span) test body

def leave : Script Answer Stmt := do
  let start := (← shift).span
  let value ← if ← at? .semicolon then pure none else some <$> invoke .expression
  let stop ← symbol .semicolon
  return .leave (start.cover stop) value

def evaluation : Script Answer (Expr × Span) := do
  let expr : Expr ← invoke .expression
  let stop ← symbol .semicolon
  return (expr, expr.span.cover stop)

def statement : Script Answer Stmt := do
  match (← peek).kind with
  | .type _ => return .declare (← invoke .variableDecl)
  | .keyword .ifWord => invoke .conditional
  | .keyword .whileWord => invoke .whileLoop
  | .keyword .returnWord => invoke .leave
  | .symbol .openBrace => return .nest (← invoke .block)
  | _ =>
      let (expr, span) ← invoke .evaluation
      return .evaluate span expr

/-- A round of statements. -/
def statements : Script Answer (List Stmt) := do
  let next ← peek
  if next.kind = .symbol .closeBrace || next.kind = .eof then return []
  else
    let read ← recover (invoke .statement)
    let rest ← invoke .statements
    return read.toList ++ rest

def braced : Script Answer Block := do
  let start ← symbol .openBrace
  let stmts ← invoke .statements
  let stop ← symbol .closeBrace
  return .mk (start.cover stop) stmts

def parameter : Script Answer Parameter := do
  let (type, start) ← typeName
  let (name, stop) ← identifier
  return { type := type.spelling, name := name, span := start.cover stop }

def functionAfter (type : TypeName) (start : Span) (name : String) :
    Script Answer FunctionDecl := do
  let _ ← symbol .openParen
  let params ←
    if ← at? .closeParen then pure none
    else some <$> separatedByCommas (invoke .parameter) (invoke .moreParameters)
  let _ ← symbol .closeParen
  let body : Block ← invoke .block
  return { returnType := type.spelling, name := name, params := params,
           body := some body, span := start.cover body.span }

def declaration : Script Answer Item := do
  let (type, start) ← typeName
  let (name, _) ← identifier
  if ← at? .openParen then
    return .function (← invoke (.functionAfter type start name))
  else return .global (← invoke (.variableAfter type start name))

def item : Script Answer Item := do
  match (← peek).kind with
  | .type _ => invoke .declaration
  | _ =>
      let (expr, span) ← invoke .evaluation
      return .expression span expr

/-- An item, or nothing if it could not be read; then a closing brace is dropped. -/
def itemStep : Script Answer (Option Item) := do
  match ← recover (invoke .item) with
  | some read => return some read
  | none =>
      if ← at? .closeBrace then
        let _ ← shift
        return none
      else return none

/-- A round of items. -/
def items : Script Answer (List Item) := do
  if (← peek).kind = .eof then return []
  else
    let read ← itemStep
    let rest ← invoke .items
    return read.toList ++ rest

end Script

namespace Procedure

/-- The steps of a procedure. -/
def steps : ∀ procedure : Procedure, Script Answer procedure.Answer
  | items => .items
  | item => .item
  | declaration => .declaration
  | functionAfter type start name => .functionAfter type start name
  | parameter => .parameter
  | moreParameters => .afterComma (.call parameter) (.call moreParameters)
  | statements => .statements
  | statement => .statement
  | conditional => .conditional
  | whileLoop => .whileLoop
  | block => .budgeted constructCost .block (.call braced)
  | braced => .braced
  | leave => .leave
  | variableDecl => .variableDecl
  | variableAfter type start name => .variableAfter type start name
  | condition => .condition
  | evaluation => .evaluation
  | arguments => .arguments
  | moreArguments => .afterComma (.call expression) (.call moreArguments)
  | expression => .budgeted constructCost .expression (.call assignment)
  | assignment => .assignment
  | chain level => .chain level
  | chainAfter level left => .chainAfter level left
  | unary => .unary
  | primary => .primary
  | reference name => .reference name
  | parenthesized => .parenthesized

/-- The parser that a procedure is, where expressions and blocks hold no more than the
given numbers of further ones inside each other. -/
def parserWithin (levels blocks : Nat) : ∀ procedure : Procedure, Parser procedure.Answer
  | items => fun state =>
      .ok (itemsWithin state.tokens.length state).1
        (itemsWithin state.tokens.length state).2
  | item => Parser.item
  | declaration => Parser.declaration
  | functionAfter type start name => Parser.functionAfter type start name
  | parameter => Parser.parameter
  | moreParameters => tokensLeft >>= moreAfterComma Parser.parameter
  | statements => Parser.statements (Parser.statement (blockWithin blocks))
  | statement => Parser.statement (blockWithin blocks)
  | conditional => Parser.conditional (blockWithin blocks)
  | whileLoop => Parser.whileLoop (blockWithin blocks)
  | block => blockWithin blocks
  | braced => Parser.braced (Parser.statement (blockWithin blocks))
  | leave => Parser.leave
  | variableDecl => Parser.variableDecl
  | variableAfter type start name => Parser.variableAfter type start name
  | condition => Parser.condition
  | evaluation => Parser.evaluation
  | arguments => Parser.arguments (expressionWithin levels)
  | moreArguments => tokensLeft >>= moreAfterComma (expressionWithin levels)
  | expression => expressionWithin levels
  | assignment => Parser.assignment (expressionWithin levels)
  | chain level => Parser.chain level (operandParser levels level)
  | chainAfter level left =>
      Parser.chainAfter level (operandParser levels level) (nestingBudget + 1) left
  | unary => Parser.unary (Parser.primary (expressionWithin levels))
  | primary => Parser.primary (expressionWithin levels)
  | reference name => Parser.reference (expressionWithin levels) name
  | parenthesized => Parser.parenthesized (expressionWithin levels)

/-- The parser that a procedure is. -/
def parser : ∀ procedure : Procedure, Parser procedure.Answer :=
  parserWithin nestingLevels nestingLevels

end Procedure

theorem RecoverClosed.parserWithin {kept : ParserState → ParserState → Prop}
    (hkept : RecoverClosed kept) (levels blocks : Nat) (procedure : Procedure) :
    Keeps kept (procedure.parserWithin levels blocks) := by
  have hexpression := hkept.recovering.expressionWithin levels
  have hblock := hkept.recovering.blockWithin blocks
  have hmore : ∀ {α : Type} {element : Parser α}, Keeps kept element →
      Keeps kept (tokensLeft >>= moreAfterComma element) := fun helement =>
    hkept.bind hkept.refl fun left => hkept.combining.moreAfterComma helement left
  cases procedure with
  | items => exact fun state => hkept.itemsWithin _ state
  | item => exact hkept.recovering.item
  | declaration => exact hkept.recovering.declaration
  | functionAfter type start name => exact hkept.recovering.functionAfter type start name
  | parameter => exact hkept.recovering.parameter
  | moreParameters => exact hmore hkept.recovering.parameter
  | statements => exact hkept.statements (hkept.recovering.statement hblock)
  | statement => exact hkept.recovering.statement hblock
  | conditional => exact hkept.recovering.conditional hblock
  | whileLoop => exact hkept.recovering.whileLoop hblock
  | block => exact hblock
  | braced =>
      refine hkept.bind (hkept.combining.symbol _) fun start => ?_
      refine hkept.bind (hkept.statements (hkept.recovering.statement hblock)) fun stmts => ?_
      exact hkept.bind (hkept.combining.symbol _) fun stop => hkept.pure _
  | leave => exact hkept.recovering.leave
  | variableDecl => exact hkept.recovering.variableDecl
  | variableAfter type start name => exact hkept.recovering.variableAfter type start name
  | condition => exact hkept.recovering.condition
  | evaluation => exact hkept.recovering.evaluation
  | arguments => exact hkept.combining.arguments hexpression
  | moreArguments => exact hmore hexpression
  | expression => exact hexpression
  | assignment => exact hkept.recovering.assignment levels hexpression
  | chain level => exact hkept.combining.chain level (hkept.recovering.operandParser levels level)
  | chainAfter level left =>
      exact hkept.combining.chainAfter level (hkept.recovering.operandParser levels level) _ left
  | unary => exact hkept.combining.unaryWithin (hkept.combining.primary hexpression) _
  | primary => exact hkept.combining.primary hexpression
  | reference name => exact hkept.combining.reference hexpression name
  | parenthesized => exact hkept.combining.parenthesized hexpression

end DeclCheck.Parser
