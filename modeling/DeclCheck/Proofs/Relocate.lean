import DeclCheck.Parser.Program
import DeclCheck.Proofs.Bare

/-!
# Tokens and trees at other places

`relocate` applies one change of places to every span of a token, of an error or of all
nodes of a tree, and leaves everything else as it is.  Taking all places away, as `bare`
does, is one such change; moving a text down in a source is another.
-/

namespace DeclCheck

/-- The change of places goes through the regions that cover two spans. -/
structure Span.CoverHom (move : Span → Span) : Prop where
  map_cover : ∀ first second : Span, move (first.cover second) = (move first).cover (move second)

variable (move : Span → Span)

def Token.relocate (token : Token) : Token :=
  { token with span := move token.span }

def LexError.relocate (error : LexError) : LexError :=
  { error with span := move error.span }

def SyntaxError.relocate (error : SyntaxError) : SyntaxError :=
  { error with span := move error.span }

def SourceError.relocate : SourceError → SourceError
  | lexical error => lexical (error.relocate move)
  | syntactic error => syntactic (error.relocate move)

namespace Expr

mutual

def relocate : Expr → Expr
  | integer span text => integer (move span) text
  | float span text => float (move span) text
  | string span text => string (move span) text
  | boolean span value => boolean (move span) value
  | identifier span name => identifier (move span) name
  | binary span op left right => binary (move span) op left.relocate right.relocate
  | unary span op operand => unary (move span) op operand.relocate
  | assign span target value => assign (move span) target value.relocate
  | call span name args => call (move span) name (relocateEach args)
  | paren span inner => paren (move span) inner.relocate

def relocateEach : List Expr → List Expr
  | [] => []
  | first :: rest => first.relocate :: relocateEach rest

end

@[simp]
theorem span_relocate (expr : Expr) : (expr.relocate move).span = move expr.span := by
  cases expr <;> rfl

theorem relocateEach_eq_map (exprs : List Expr) :
    relocateEach move exprs = exprs.map (relocate move) := by
  induction exprs with
  | nil => rfl
  | cons first rest ih => rw [relocateEach, ih, List.map_cons]

end Expr

def VariableDecl.relocate (decl : VariableDecl) : VariableDecl :=
  { decl with init := decl.init.map (Expr.relocate move), span := move decl.span }

mutual

def Stmt.relocate : Stmt → Stmt
  | .declare decl => .declare (decl.relocate move)
  | .evaluate span expr => .evaluate (move span) (expr.relocate move)
  | .ifThen span condition body =>
      .ifThen (move span) (condition.relocate move) body.relocate
  | .ifElse span condition onTrue onFalse =>
      .ifElse (move span) (condition.relocate move) onTrue.relocate onFalse.relocate
  | .loop span condition body => .loop (move span) (condition.relocate move) body.relocate
  | .leave span value => .leave (move span) (value.map (Expr.relocate move))
  | .nest block => .nest block.relocate

def Block.relocate : Block → Block
  | .mk span stmts => .mk (move span) (Stmt.relocateEach stmts)

def Stmt.relocateEach : List Stmt → List Stmt
  | [] => []
  | first :: rest => first.relocate :: Stmt.relocateEach rest

end

@[simp]
theorem Block.span_relocate (block : Block) :
    (block.relocate move).span = move block.span := by
  cases block with
  | mk span stmts => simp [Block.relocate, Block.span]

theorem Stmt.relocateEach_eq_map (stmts : List Stmt) :
    Stmt.relocateEach move stmts = stmts.map (Stmt.relocate move) := by
  induction stmts with
  | nil => rfl
  | cons first rest ih => rw [Stmt.relocateEach, ih, List.map_cons]

def Parameter.relocate (param : Parameter) : Parameter :=
  { param with span := move param.span }

def FunctionDecl.relocate (function : FunctionDecl) : FunctionDecl :=
  { function with
    params := function.params.map (List.map (Parameter.relocate move))
    body := function.body.map (Block.relocate move)
    span := move function.span }

def Item.relocate : Item → Item
  | .global decl => .global (decl.relocate move)
  | .function decl => .function (decl.relocate move)
  | .expression span expr => .expression (move span) (expr.relocate move)

/-! ## Taking places away -/

theorem Span.coverHom_blank : CoverHom fun _ => {} where
  map_cover _ _ := rfl

theorem Token.bare_eq_relocate : Token.bare = Token.relocate fun _ => {} :=
  rfl

namespace Expr

mutual

theorem bare_eq_relocate (expr : Expr) : expr.bare = expr.relocate fun _ => {} := by
  cases expr with
  | binary span op left right =>
      rw [bare, relocate, bare_eq_relocate left, bare_eq_relocate right]
  | unary span op operand => rw [bare, relocate, bare_eq_relocate operand]
  | assign span target value => rw [bare, relocate, bare_eq_relocate value]
  | call span name args => rw [bare, relocate, bareEach_eq_relocateEach args]
  | paren span inner => rw [bare, relocate, bare_eq_relocate inner]
  | _ => rfl

theorem bareEach_eq_relocateEach (exprs : List Expr) :
    bareEach exprs = relocateEach (fun _ => {}) exprs := by
  cases exprs with
  | nil => rfl
  | cons first rest =>
      rw [bareEach, relocateEach, bare_eq_relocate first, bareEach_eq_relocateEach rest]

end

theorem bare_eq : bare = relocate fun _ => {} :=
  funext bare_eq_relocate

end Expr

theorem VariableDecl.bare_eq_relocate (decl : VariableDecl) :
    decl.bare = decl.relocate fun _ => {} := by
  rw [VariableDecl.bare, VariableDecl.relocate, Expr.bare_eq]

mutual

theorem Stmt.bare_eq_relocate (stmt : Stmt) : stmt.bare = stmt.relocate fun _ => {} := by
  cases stmt with
  | declare decl => rw [Stmt.bare, Stmt.relocate, decl.bare_eq_relocate]
  | evaluate span expr => rw [Stmt.bare, Stmt.relocate, Expr.bare_eq]
  | ifThen span condition body =>
      rw [Stmt.bare, Stmt.relocate, Expr.bare_eq, Block.bare_eq_relocate body]
  | ifElse span condition onTrue onFalse =>
      rw [Stmt.bare, Stmt.relocate, Expr.bare_eq, Block.bare_eq_relocate onTrue,
        Block.bare_eq_relocate onFalse]
  | loop span condition body =>
      rw [Stmt.bare, Stmt.relocate, Expr.bare_eq, Block.bare_eq_relocate body]
  | leave span value => rw [Stmt.bare, Stmt.relocate, Expr.bare_eq]
  | nest block => rw [Stmt.bare, Stmt.relocate, Block.bare_eq_relocate block]

theorem Block.bare_eq_relocate (block : Block) :
    block.bare = block.relocate fun _ => {} := by
  cases block with
  | mk span stmts => rw [Block.bare, Block.relocate, Stmt.bareEach_eq_relocateEach stmts]

theorem Stmt.bareEach_eq_relocateEach (stmts : List Stmt) :
    Stmt.bareEach stmts = Stmt.relocateEach (fun _ => {}) stmts := by
  cases stmts with
  | nil => rfl
  | cons first rest =>
      rw [Stmt.bareEach, Stmt.relocateEach, Stmt.bare_eq_relocate first,
        Stmt.bareEach_eq_relocateEach rest]

end

theorem FunctionDecl.bare_eq_relocate (function : FunctionDecl) :
    function.bare = function.relocate fun _ => {} := by
  rw [FunctionDecl.bare, FunctionDecl.relocate, funext Block.bare_eq_relocate]
  rfl

theorem Item.bare_eq : Item.bare = Item.relocate fun _ => {} := by
  funext item
  cases item with
  | global decl => rw [Item.bare, Item.relocate, decl.bare_eq_relocate]
  | function decl => rw [Item.bare, Item.relocate, decl.bare_eq_relocate]
  | expression span expr => rw [Item.bare, Item.relocate, Expr.bare_eq]

end DeclCheck
