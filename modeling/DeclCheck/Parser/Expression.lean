import DeclCheck.Expr
import DeclCheck.Parser.Basic

/-!
# Parsing expressions

The grammar, from the loosest construct to the tightest: assignment, which
associates to the right, six levels of binary operators, which associate to the
left, prefix operators, and primaries.  Each part is a parser that takes the
parser of the next tighter part, or of the expressions it may hold, as an
argument; `expressionWithin` ties the knot, once for each level of nesting that
the budget allows.
-/

namespace DeclCheck.Parser

/-- The operator of the given level that comes next, if one does. -/
def operator? (level : Precedence) (kind : TokenKind) : Option BinaryOp :=
  (kind.symbol?.bind BinaryOp.ofSymbol?).filter (·.precedence = level)

/-- The rest of a chain of operands that starts with `left`: as long as an
operator of the level comes next, the operator and one more operand.  Each
operand takes from the nesting budget, which `bound` does not fall short of. -/
def chainAfter (level : Precedence) (operand : Parser Expr) :
    Nat → Expr → Parser Expr
  | 0, _ => tooDeep .expression
  | bound + 1, left => do
      match operator? level (← peek).kind with
      | none => return left
      | some op =>
          let _ ← shift
          spend operatorCost .expression
          let right ← operand
          chainAfter level operand bound
            (.binary (left.span.cover right.span) op left right)

/-- Operands joined by the operators of one level, grouped to the left. -/
def chain (level : Precedence) (operand : Parser Expr) : Parser Expr :=
  keepingDepth do
    let first ← operand
    chainAfter level operand (nestingBudget + 1) first

/-- All levels of binary operators over the given operands. -/
def binary (operand : Parser Expr) : Parser Expr :=
  Precedence.all.foldr chain operand

/-- Prefix operators before a primary.  Each takes from the nesting budget, which
`bound` does not fall short of. -/
def unaryWithin (primary : Parser Expr) : Nat → Parser Expr
  | 0 => tooDeep .expression
  | bound + 1 => do
      match (← peek).kind.symbol?.bind UnaryOp.ofSymbol? with
      | none => primary
      | some op =>
          let start ← shift
          let operand ← budgeted operatorCost .expression (unaryWithin primary bound)
          return .unary (start.span.cover operand.span) op operand

def unary (primary : Parser Expr) : Parser Expr :=
  unaryWithin primary (nestingBudget + 1)

/-- The arguments of a call and its closing parenthesis, after the opening one. -/
def arguments (expression : Parser Expr) : Parser (List Expr × Span) := do
  let args ← if ← at? .closeParen then pure [] else separatedByCommas expression
  return (args, ← symbol .closeParen)

/-- A name, or a call if an opening parenthesis follows the name. -/
def reference (expression : Parser Expr) (name : String) : Parser Expr := do
  let start := (← shift).span
  if ← at? .openParen then
    let _ ← shift
    let (args, stop) ← arguments expression
    return .call (start.cover stop) name args
  else return .identifier start name

/-- An expression between parentheses. -/
def parenthesized (expression : Parser Expr) : Parser Expr := do
  let start ← symbol .openParen
  let inner ← expression
  let stop ← symbol .closeParen
  return .paren (start.cover stop) inner

/-- A literal, a name, a call, or an expression between parentheses. -/
def primary (expression : Parser Expr) : Parser Expr := do
  match (← peek).kind with
  | .integer text => return .integer (← shift).span text
  | .float text => return .float (← shift).span text
  | .string text => return .string (← shift).span text
  | .keyword .trueWord => return .boolean (← shift).span true
  | .keyword .falseWord => return .boolean (← shift).span false
  | .identifier name => reference expression name
  | .symbol .openParen => parenthesized expression
  | _ => reject .expression

/-- An assignment to a name, or what stands left of one. -/
def assignment (expression : Parser Expr) : Parser Expr := do
  let left ← binary (unary (primary expression))
  if ← at? .assign then
    match left with
    | .identifier start name =>
        let _ ← shift
        let value ← expression
        return .assign (start.cover value.span) name value
    | _ => throw { cause := .invalidTarget, span := left.span }
  else return left

/-- An expression that holds at most `levels` more expressions inside each
other. -/
def expressionWithin : Nat → Parser Expr
  | 0 => tooDeep .expression
  | levels + 1 =>
      budgeted constructCost .expression (assignment (expressionWithin levels))

/-- An expression.  The nesting budget is spent before the levels are. -/
def expression : Parser Expr :=
  expressionWithin (nestingBudget / constructCost)

end DeclCheck.Parser
