import DeclCheck.Token

/-!
# Expressions

Every node carries the span it was read from.  The compact text of an expression
is the sequence of its lexemes without any layout between them; parentheses are
nodes of the tree, so the text needs none beyond those that were written.
-/

namespace DeclCheck

/-- How tightly the operators of one level bind, the loosest level first. -/
inductive Precedence where
  | disjunction
  | conjunction
  | equality
  | comparison
  | sum
  | product
  deriving DecidableEq, Repr

namespace Precedence

/-- The levels, from the loosest to the tightest. -/
def all : List Precedence :=
  [disjunction, conjunction, equality, comparison, sum, product]

end Precedence

/-- The operators between two operands. -/
inductive BinaryOp where
  | add
  | sub
  | mul
  | div
  | rem
  | equal
  | notEqual
  | less
  | lessEqual
  | greater
  | greaterEqual
  | and
  | or
  deriving DecidableEq, Repr

namespace BinaryOp

def symbol : BinaryOp → Symbol
  | add => .plus
  | sub => .minus
  | mul => .star
  | div => .slash
  | rem => .percent
  | equal => .equal
  | notEqual => .notEqual
  | less => .less
  | lessEqual => .lessEqual
  | greater => .greater
  | greaterEqual => .greaterEqual
  | and => .andAnd
  | or => .orOr

def precedence : BinaryOp → Precedence
  | add => .sum
  | sub => .sum
  | mul => .product
  | div => .product
  | rem => .product
  | equal => .equality
  | notEqual => .equality
  | less => .comparison
  | lessEqual => .comparison
  | greater => .comparison
  | greaterEqual => .comparison
  | and => .conjunction
  | or => .disjunction

/-- The operator that a symbol stands for between two operands. -/
def ofSymbol? : Symbol → Option BinaryOp
  | .plus => some add
  | .minus => some sub
  | .star => some mul
  | .slash => some div
  | .percent => some rem
  | .equal => some equal
  | .notEqual => some notEqual
  | .less => some less
  | .lessEqual => some lessEqual
  | .greater => some greater
  | .greaterEqual => some greaterEqual
  | .andAnd => some and
  | .orOr => some or
  | _ => none

end BinaryOp

/-- The operators before one operand. -/
inductive UnaryOp where
  | negate
  | not
  deriving DecidableEq, Repr

namespace UnaryOp

def symbol : UnaryOp → Symbol
  | negate => .minus
  | not => .bang

/-- The operator that a symbol stands for before an operand. -/
def ofSymbol? : Symbol → Option UnaryOp
  | .minus => some negate
  | .bang => some not
  | _ => none

end UnaryOp

/-- An expression.  Literals keep their text as it was written, and only a plain
name can be assigned to or called. -/
inductive Expr where
  | integer (span : Span) (text : String)
  | float (span : Span) (text : String)
  | string (span : Span) (text : String)
  | boolean (span : Span) (value : Bool)
  | identifier (span : Span) (name : String)
  | binary (span : Span) (op : BinaryOp) (left right : Expr)
  | unary (span : Span) (op : UnaryOp) (operand : Expr)
  | assign (span : Span) (target : String) (value : Expr)
  | call (span : Span) (name : String) (args : List Expr)
  | paren (span : Span) (inner : Expr)
  deriving Inhabited

namespace Expr

def span : Expr → Span
  | integer span _ => span
  | float span _ => span
  | string span _ => span
  | boolean span _ => span
  | identifier span _ => span
  | binary span .. => span
  | unary span .. => span
  | assign span .. => span
  | call span .. => span
  | paren span _ => span

/-- The expressions directly inside an expression, in source order. -/
def children : Expr → List Expr
  | binary _ _ left right => [left, right]
  | unary _ _ operand => [operand]
  | assign _ _ value => [value]
  | call _ _ args => args
  | paren _ inner => [inner]
  | _ => []

/-- The name of the function that an expression itself calls. -/
def callee? : Expr → Option String
  | call _ name _ => some name
  | _ => none

/-- The word for a truth value. -/
def booleanWord : Bool → Keyword
  | true => .trueWord
  | false => .falseWord

mutual

/-- The lexemes of an expression, in source order. -/
def lexemes : Expr → List String
  | integer _ text => [text]
  | float _ text => [text]
  | string _ text => [text]
  | boolean _ value => [(booleanWord value).spelling]
  | identifier _ name => [name]
  | binary _ op left right =>
      left.lexemes ++ op.symbol.spelling :: right.lexemes
  | unary _ op operand => op.symbol.spelling :: operand.lexemes
  | assign _ target value => target :: Symbol.assign.spelling :: value.lexemes
  | call _ name args =>
      name :: Symbol.openParen.spelling ::
        (List.intercalate [Symbol.comma.spelling] (lexemesOfEach args) ++
          [Symbol.closeParen.spelling])
  | paren _ inner =>
      Symbol.openParen.spelling :: (inner.lexemes ++ [Symbol.closeParen.spelling])

/-- The lexemes of each of some expressions. -/
def lexemesOfEach : List Expr → List (List String)
  | [] => []
  | first :: rest => first.lexemes :: lexemesOfEach rest

end

/-- The compact text: all lexemes, with nothing between them. -/
def text (expr : Expr) : String :=
  String.join expr.lexemes

mutual

/-- The expression and everything inside it, a node before what it holds. -/
def subexpressions : Expr → List Expr
  | binary span op left right =>
      binary span op left right :: (left.subexpressions ++ right.subexpressions)
  | unary span op operand => unary span op operand :: operand.subexpressions
  | assign span target value => assign span target value :: value.subexpressions
  | call span name args => call span name args :: subexpressionsOfEach args
  | paren span inner => paren span inner :: inner.subexpressions
  | integer span text => [integer span text]
  | float span text => [float span text]
  | string span text => [string span text]
  | boolean span value => [boolean span value]
  | identifier span name => [identifier span name]

/-- The subexpressions of some expressions, one expression after the other. -/
def subexpressionsOfEach : List Expr → List Expr
  | [] => []
  | first :: rest => first.subexpressions ++ subexpressionsOfEach rest

end

end Expr

end DeclCheck
