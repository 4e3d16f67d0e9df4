import DeclCheck.Program
import DeclCheck.Text.Outline
import DeclCheck.Text.Quoted

/-!
# Outlines of programs

Every node of a tree with all it holds, spans included.
-/

namespace DeclCheck

open Text (Outline)

def quotedOutline (text : String) : Outline :=
  Outline.atom (Text.quoted text)

def Span.outline (span : Span) : Outline :=
  Outline.record "Span"
    [("start", Outline.atom (toString span.start)),
      ("end", Outline.atom (toString span.stop)),
      ("line", Outline.atom (toString span.line)),
      ("column", Outline.atom (toString span.column))]

/-- A node: what it is, and its span. -/
def nodeOutline (name : String) (kind : Outline) (span : Span) : Outline :=
  Outline.record name [("kind", kind), ("span", span.outline)]

def BinaryOp.label : BinaryOp → String
  | add => "Add"
  | sub => "Sub"
  | mul => "Mul"
  | div => "Div"
  | rem => "Mod"
  | equal => "Eq"
  | notEqual => "Ne"
  | less => "Lt"
  | lessEqual => "Le"
  | greater => "Gt"
  | greaterEqual => "Ge"
  | and => "And"
  | or => "Or"

def UnaryOp.label : UnaryOp → String
  | negate => "Neg"
  | not => "Not"

mutual

def Expr.outline : Expr → Outline
  | .integer span text =>
      nodeOutline "Expr" (.wrapped "IntLiteral" (quotedOutline text)) span
  | .float span text =>
      nodeOutline "Expr" (.wrapped "FloatLiteral" (quotedOutline text)) span
  | .string span text =>
      nodeOutline "Expr" (.wrapped "StringLiteral" (quotedOutline text)) span
  | .boolean span value =>
      nodeOutline "Expr" (.wrapped "BoolLiteral" (.atom (toString value))) span
  | .identifier span name =>
      nodeOutline "Expr" (.wrapped "Identifier" (quotedOutline name)) span
  | .binary span op left right =>
      nodeOutline "Expr" (.record "Binary"
        [("op", .atom op.label), ("left", left.outline), ("right", right.outline)]) span
  | .unary span op operand =>
      nodeOutline "Expr" (.record "Unary"
        [("op", .atom op.label), ("operand", operand.outline)]) span
  | .assign span target value =>
      nodeOutline "Expr" (.record "Assign"
        [("target", quotedOutline target), ("value", value.outline)]) span
  | .call span name args =>
      nodeOutline "Expr" (.record "Call"
        [("name", quotedOutline name), ("args", .sequence (Expr.outlinesOfEach args))]) span
  | .paren span inner =>
      nodeOutline "Expr" (.wrapped "Paren" inner.outline) span

def Expr.outlinesOfEach : List Expr → List Outline
  | [] => []
  | first :: rest => first.outline :: Expr.outlinesOfEach rest

end

def VariableDecl.outline (decl : VariableDecl) : Outline :=
  Outline.record "VarDecl"
    [("ty", quotedOutline decl.type), ("name", quotedOutline decl.name),
      ("init", .optional (decl.init.map Expr.outline)), ("span", decl.span.outline)]

mutual

def Stmt.outline : Stmt → Outline
  | .declare decl =>
      nodeOutline "Stmt" (.wrapped "Declaration" decl.outline) decl.span
  | .evaluate span expr => nodeOutline "Stmt" (.wrapped "Expr" expr.outline) span
  | .ifThen span condition body =>
      nodeOutline "Stmt" (.record "If"
        [("condition", condition.outline), ("then_branch", body.outline),
          ("else_branch", .optional none)]) span
  | .ifElse span condition onTrue onFalse =>
      nodeOutline "Stmt" (.record "If"
        [("condition", condition.outline), ("then_branch", onTrue.outline),
          ("else_branch", .optional (some onFalse.outline))]) span
  | .loop span condition body =>
      nodeOutline "Stmt" (.record "While"
        [("condition", condition.outline), ("body", body.outline)]) span
  | .leave span value =>
      nodeOutline "Stmt" (.wrapped "Return" (.optional (value.map Expr.outline))) span
  | .nest block =>
      nodeOutline "Stmt" (.wrapped "Block" block.outline) block.span

def Block.outline : Block → Outline
  | .mk span stmts =>
      .record "Block"
        [("stmts", .sequence (Stmt.outlinesOfEach stmts)), ("span", span.outline)]

def Stmt.outlinesOfEach : List Stmt → List Outline
  | [] => []
  | first :: rest => first.outline :: Stmt.outlinesOfEach rest

end

def Parameter.outline (param : Parameter) : Outline :=
  Outline.record "Param"
    [("ty", quotedOutline param.type), ("name", quotedOutline param.name),
      ("span", param.span.outline)]

def FunctionDecl.outline (decl : FunctionDecl) : Outline :=
  Outline.record "FuncDecl"
    [("return_type", quotedOutline decl.returnType),
      ("name", quotedOutline decl.name),
      ("params", .optional (decl.params.map fun params =>
        .sequence (params.map Parameter.outline))),
      ("body", .optional (decl.body.map Block.outline)),
      ("span", decl.span.outline)]

def Item.outline (item : Item) : Outline :=
  let kind := match item with
    | .global decl => Outline.wrapped "Variable" decl.outline
    | .function decl => Outline.wrapped "Function" decl.outline
    | .expression _ expr => Outline.wrapped "Expression" expr.outline
  nodeOutline "Item" kind item.span

def Program.outline (program : Program) : Outline :=
  Outline.record "Program" [("items", .sequence (program.items.map Item.outline))]

end DeclCheck
