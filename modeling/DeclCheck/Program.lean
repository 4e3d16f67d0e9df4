import DeclCheck.Expr

/-!
# Statements, declarations and programs

A block is a list of statements between braces, and statements hold blocks in
turn.  Types are kept by name, so that a tree may name types that no source text
can spell.
-/

namespace DeclCheck

/-- A variable with its declared type and, possibly, an initial value. -/
structure VariableDecl where
  type : String
  name : String
  init : Option Expr
  span : Span
  deriving Inhabited

/-- A parameter of a function. -/
structure Parameter where
  type : String
  name : String
  span : Span
  deriving DecidableEq, Inhabited, Repr

namespace VariableDecl

/-- The lexemes of a declaration, the semicolon included. -/
def lexemes (decl : VariableDecl) : List String :=
  let value := match decl.init with
    | some expr => Symbol.assign.spelling :: expr.lexemes
    | none => []
  decl.type :: decl.name :: (value ++ [Symbol.semicolon.spelling])

end VariableDecl

mutual

/-- A statement.  A declaration and a nested block have the spans of what they
hold. -/
inductive Stmt where
  | declare (decl : VariableDecl)
  | evaluate (span : Span) (expr : Expr)
  | ifThen (span : Span) (condition : Expr) (body : Block)
  | ifElse (span : Span) (condition : Expr) (onTrue onFalse : Block)
  | loop (span : Span) (condition : Expr) (body : Block)
  | leave (span : Span) (value : Option Expr)
  | nest (block : Block)

/-- Statements between braces. -/
inductive Block where
  | mk (span : Span) (stmts : List Stmt)

end

namespace Block

def span : Block → Span
  | mk span _ => span

def stmts : Block → List Stmt
  | mk _ stmts => stmts

end Block

namespace Stmt

def span : Stmt → Span
  | declare decl => decl.span
  | evaluate span _ => span
  | ifThen span _ _ => span
  | ifElse span .. => span
  | loop span _ _ => span
  | leave span _ => span
  | nest block => block.span

/-- The variable that a statement itself declares. -/
def declared? : Stmt → Option VariableDecl
  | declare decl => some decl
  | _ => none

/-- The expressions that a statement itself holds, those inside its blocks not
included. -/
def ownExprs : Stmt → List Expr
  | declare decl => decl.init.toList
  | evaluate _ expr => [expr]
  | ifThen _ condition _ => [condition]
  | ifElse _ condition _ _ => [condition]
  | loop _ condition _ => [condition]
  | leave _ value => value.toList
  | nest _ => []

/-- The blocks that a statement itself holds, in source order. -/
def ownBlocks : Stmt → List Block
  | ifThen _ _ body => [body]
  | ifElse _ _ onTrue onFalse => [onTrue, onFalse]
  | loop _ _ body => [body]
  | nest block => [block]
  | _ => []

end Stmt

mutual

/-- The lexemes of a statement, in source order. -/
def Stmt.lexemes : Stmt → List String
  | .declare decl => decl.lexemes
  | .evaluate _ expr => expr.lexemes ++ [Symbol.semicolon.spelling]
  | .ifThen _ condition body =>
      Keyword.ifWord.spelling :: Symbol.openParen.spelling ::
        (condition.lexemes ++ Symbol.closeParen.spelling :: body.lexemes)
  | .ifElse _ condition onTrue onFalse =>
      Keyword.ifWord.spelling :: Symbol.openParen.spelling ::
        (condition.lexemes ++ Symbol.closeParen.spelling ::
          (onTrue.lexemes ++ Keyword.elseWord.spelling :: onFalse.lexemes))
  | .loop _ condition body =>
      Keyword.whileWord.spelling :: Symbol.openParen.spelling ::
        (condition.lexemes ++ Symbol.closeParen.spelling :: body.lexemes)
  | .leave _ value =>
      Keyword.returnWord.spelling ::
        (value.toList.flatMap Expr.lexemes ++ [Symbol.semicolon.spelling])
  | .nest block => block.lexemes

/-- The lexemes of a block, the braces included. -/
def Block.lexemes : Block → List String
  | .mk _ stmts =>
      Symbol.openBrace.spelling ::
        (Stmt.lexemesOfEach stmts ++ [Symbol.closeBrace.spelling])

/-- The lexemes of some statements, one statement after the other. -/
def Stmt.lexemesOfEach : List Stmt → List String
  | [] => []
  | first :: rest => first.lexemes ++ Stmt.lexemesOfEach rest

end

/-- The compact text of a block: all lexemes, with nothing between them. -/
def Block.text (block : Block) : String :=
  String.join block.lexemes

mutual

/-- The expressions held by a statement at any depth: its own first, then those
of its blocks. -/
def Stmt.sites : Stmt → List Expr
  | .declare decl => decl.init.toList
  | .evaluate _ expr => [expr]
  | .ifThen _ condition body => condition :: body.sites
  | .ifElse _ condition onTrue onFalse =>
      condition :: (onTrue.sites ++ onFalse.sites)
  | .loop _ condition body => condition :: body.sites
  | .leave _ value => value.toList
  | .nest block => block.sites

/-- The expressions held by the statements of a block, at any depth. -/
def Block.sites : Block → List Expr
  | .mk _ stmts => Stmt.sitesOfEach stmts

/-- The expressions held by some statements, one statement after the other. -/
def Stmt.sitesOfEach : List Stmt → List Expr
  | [] => []
  | first :: rest => first.sites ++ Stmt.sitesOfEach rest

end

/-- A function.  A function may be written without a parameter list, which is
not the same as with an empty one, and a tree may leave out the body. -/
structure FunctionDecl where
  returnType : String
  name : String
  params : Option (List Parameter)
  body : Option Block
  span : Span

namespace FunctionDecl

/-- The parameters; none if there is no parameter list. -/
def parameters (function : FunctionDecl) : List Parameter :=
  function.params.getD []

/-- The statements that stand directly in the body. -/
def statements (function : FunctionDecl) : List Stmt :=
  match function.body with
  | some body => body.stmts
  | none => []

/-- The variables declared directly in the body, not inside a nested block. -/
def locals (function : FunctionDecl) : List VariableDecl :=
  function.statements.filterMap Stmt.declared?

/-- The expressions of the body, at any block depth. -/
def sites (function : FunctionDecl) : List Expr :=
  Stmt.sitesOfEach function.statements

end FunctionDecl

/-- What stands at the top level of a source text. -/
inductive Item where
  | global (decl : VariableDecl)
  | function (decl : FunctionDecl)
  | expression (span : Span) (expr : Expr)

namespace Item

def span : Item → Span
  | global decl => decl.span
  | function decl => decl.span
  | expression span _ => span

def global? : Item → Option VariableDecl
  | global decl => some decl
  | _ => none

def function? : Item → Option FunctionDecl
  | function decl => some decl
  | _ => none

end Item

/-- A whole source text: its items, in order. -/
structure Program where
  items : List Item := []

namespace Program

def globals (program : Program) : List VariableDecl :=
  program.items.filterMap Item.global?

def functions (program : Program) : List FunctionDecl :=
  program.items.filterMap Item.function?

end Program

end DeclCheck
