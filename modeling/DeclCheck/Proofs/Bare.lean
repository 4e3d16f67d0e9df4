import DeclCheck.Program

/-!
# Tokens and trees without places

Two readings of the same text in a different layout differ in nothing but spans.
`bare` takes every span away, from a token or from all nodes of a tree, so that
what is left can be compared.
-/

namespace DeclCheck

namespace Span

@[simp]
theorem cover_blank : cover {} {} = {} := rfl

end Span

/-- The token without its place. -/
def Token.bare (token : Token) : Token :=
  { token with span := {} }

theorem map_bare_eq_map_kind (tokens : List Token) :
    tokens.map Token.bare =
      (tokens.map Token.kind).map fun kind => { kind := kind, span := {} } := by
  rw [List.map_map]
  rfl

namespace Expr

mutual

/-- The expression with blank spans at all nodes. -/
def bare : Expr → Expr
  | integer _ text => integer {} text
  | float _ text => float {} text
  | string _ text => string {} text
  | boolean _ value => boolean {} value
  | identifier _ name => identifier {} name
  | binary _ op left right => binary {} op left.bare right.bare
  | unary _ op operand => unary {} op operand.bare
  | assign _ target value => assign {} target value.bare
  | call _ name args => call {} name (bareEach args)
  | paren _ inner => paren {} inner.bare

/-- Each of some expressions with blank spans. -/
def bareEach : List Expr → List Expr
  | [] => []
  | first :: rest => first.bare :: bareEach rest

end

@[simp]
theorem span_bare (expr : Expr) : expr.bare.span = {} := by
  cases expr <;> rfl

theorem bareEach_eq_map (exprs : List Expr) : bareEach exprs = exprs.map bare := by
  induction exprs with
  | nil => rfl
  | cons first rest ih => rw [bareEach, ih, List.map_cons]

end Expr

/-- The declaration with blank spans. -/
def VariableDecl.bare (decl : VariableDecl) : VariableDecl :=
  { decl with init := decl.init.map Expr.bare, span := {} }

mutual

/-- The statement with blank spans at all nodes. -/
def Stmt.bare : Stmt → Stmt
  | .declare decl => .declare decl.bare
  | .evaluate _ expr => .evaluate {} expr.bare
  | .ifThen _ condition body => .ifThen {} condition.bare body.bare
  | .ifElse _ condition onTrue onFalse =>
      .ifElse {} condition.bare onTrue.bare onFalse.bare
  | .loop _ condition body => .loop {} condition.bare body.bare
  | .leave _ value => .leave {} (value.map Expr.bare)
  | .nest block => .nest block.bare

/-- The block with blank spans at all nodes. -/
def Block.bare : Block → Block
  | .mk _ stmts => .mk {} (Stmt.bareEach stmts)

/-- Each of some statements with blank spans. -/
def Stmt.bareEach : List Stmt → List Stmt
  | [] => []
  | first :: rest => first.bare :: Stmt.bareEach rest

end

@[simp]
theorem Block.span_bare (block : Block) : block.bare.span = {} := by
  cases block with
  | mk span stmts => simp [Block.bare, Block.span]

theorem Stmt.bareEach_eq_map (stmts : List Stmt) :
    Stmt.bareEach stmts = stmts.map Stmt.bare := by
  induction stmts with
  | nil => rfl
  | cons first rest ih => rw [Stmt.bareEach, ih, List.map_cons]

/-- The parameter with a blank span. -/
def Parameter.bare (param : Parameter) : Parameter :=
  { param with span := {} }

/-- The function with blank spans at all nodes. -/
def FunctionDecl.bare (function : FunctionDecl) : FunctionDecl :=
  { function with
    params := function.params.map (List.map Parameter.bare)
    body := function.body.map Block.bare
    span := {} }

/-- The item with blank spans at all nodes. -/
def Item.bare : Item → Item
  | .global decl => .global decl.bare
  | .function decl => .function decl.bare
  | .expression _ expr => .expression {} expr.bare

/-- The program with blank spans at all nodes. -/
def Program.bare (program : Program) : Program where
  items := program.items.map Item.bare

end DeclCheck
