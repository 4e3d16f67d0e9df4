import DeclCheck.Program

/-!
# The grammar

Which tokens are read as which tree.  Every rule relates the tokens of a phrase,
one after the other, to its tree, and gives the tree the span of those tokens:
a node covers everything from its first token to its last.  Nothing here says how
a phrase is found; in particular no rule looks ahead and no rule counts nesting.

Over tokens that all have the blank span this is the plain grammar of token kinds,
as then every node has the blank span too.
-/

namespace DeclCheck.Grammar

/-- The classes of expressions, from the loosest to the tightest. -/
inductive ExprClass where
  | expression
  | level (precedence : Precedence)
  | prefixed
  | primary
  deriving DecidableEq, Repr

/-- The class of what stands to the right of an operator of the level, which is
also the class of a chain without operators. -/
def operands : Precedence → ExprClass
  | .disjunction => .level .conjunction
  | .conjunction => .level .equality
  | .equality => .level .comparison
  | .comparison => .level .sum
  | .sum => .level .product
  | .product => .prefixed

mutual

/-- The expressions of each class.  Assignment associates to the right and takes
nothing but a name on its left, the operators of a level associate to the left,
and a prefix operator stands before another one or before a primary. -/
inductive DerivesExpr : ExprClass → List Token → Expr → Prop
  | integer (span : Span) (text : String) :
      DerivesExpr .primary [⟨.integer text, span⟩] (.integer span text)
  | float (span : Span) (text : String) :
      DerivesExpr .primary [⟨.float text, span⟩] (.float span text)
  | string (span : Span) (text : String) :
      DerivesExpr .primary [⟨.string text, span⟩] (.string span text)
  | boolean (span : Span) (value : Bool) :
      DerivesExpr .primary [⟨.keyword (Expr.booleanWord value), span⟩]
        (.boolean span value)
  | identifier (span : Span) (name : String) :
      DerivesExpr .primary [⟨.identifier name, span⟩] (.identifier span name)
  | emptyCall (start opening stop : Span) (name : String) :
      DerivesExpr .primary
        [⟨.identifier name, start⟩, ⟨.symbol .openParen, opening⟩,
          ⟨.symbol .closeParen, stop⟩]
        (.call (start.cover stop) name [])
  | call (start opening stop : Span) (name : String) {tokens : List Token}
      {args : List Expr} (hargs : DerivesArgs tokens args) :
      DerivesExpr .primary
        (⟨.identifier name, start⟩ :: ⟨.symbol .openParen, opening⟩ ::
          (tokens ++ [⟨.symbol .closeParen, stop⟩]))
        (.call (start.cover stop) name args)
  | paren (start stop : Span) {tokens : List Token} {inner : Expr}
      (hinner : DerivesExpr .expression tokens inner) :
      DerivesExpr .primary
        (⟨.symbol .openParen, start⟩ :: (tokens ++ [⟨.symbol .closeParen, stop⟩]))
        (.paren (start.cover stop) inner)
  | ofPrimary {tokens : List Token} {expr : Expr}
      (hprimary : DerivesExpr .primary tokens expr) :
      DerivesExpr .prefixed tokens expr
  | unary (start : Span) (op : UnaryOp) {tokens : List Token} {operand : Expr}
      (hoperand : DerivesExpr .prefixed tokens operand) :
      DerivesExpr .prefixed (⟨.symbol op.symbol, start⟩ :: tokens)
        (.unary (start.cover operand.span) op operand)
  | ofOperand (level : Precedence) {tokens : List Token} {expr : Expr}
      (hoperand : DerivesExpr (operands level) tokens expr) :
      DerivesExpr (.level level) tokens expr
  | binary (mark : Span) (op : BinaryOp) {leftTokens rightTokens : List Token}
      {left right : Expr}
      (hleft : DerivesExpr (.level op.precedence) leftTokens left)
      (hright : DerivesExpr (operands op.precedence) rightTokens right) :
      DerivesExpr (.level op.precedence)
        (leftTokens ++ ⟨.symbol op.symbol, mark⟩ :: rightTokens)
        (.binary (left.span.cover right.span) op left right)
  | ofChain {tokens : List Token} {expr : Expr}
      (hchain : DerivesExpr (.level .disjunction) tokens expr) :
      DerivesExpr .expression tokens expr
  | assign (start mark : Span) (name : String) {tokens : List Token}
      {value : Expr} (hvalue : DerivesExpr .expression tokens value) :
      DerivesExpr .expression
        (⟨.identifier name, start⟩ :: ⟨.symbol .assign, mark⟩ :: tokens)
        (.assign (start.cover value.span) name value)

/-- One or more expressions separated by commas. -/
inductive DerivesArgs : List Token → List Expr → Prop
  | last {tokens : List Token} {expr : Expr}
      (hexpr : DerivesExpr .expression tokens expr) :
      DerivesArgs tokens [expr]
  | more (comma : Span) {tokens rest : List Token} {expr : Expr}
      {exprs : List Expr} (hexpr : DerivesExpr .expression tokens expr)
      (hrest : DerivesArgs rest exprs) :
      DerivesArgs (tokens ++ ⟨.symbol .comma, comma⟩ :: rest) (expr :: exprs)

end

/-- What may follow the type and the name of a variable, up to and with the
semicolon at `stop`. -/
inductive DerivesInit (stop : Span) : List Token → Option Expr → Prop
  | absent : DerivesInit stop [⟨.symbol .semicolon, stop⟩] none
  | present (mark : Span) {tokens : List Token} {value : Expr}
      (hvalue : DerivesExpr .expression tokens value) :
      DerivesInit stop
        (⟨.symbol .assign, mark⟩ :: (tokens ++ [⟨.symbol .semicolon, stop⟩]))
        (some value)

/-- The declaration of a variable. -/
inductive DerivesVariable : List Token → VariableDecl → Prop
  | intro (start middle stop : Span) (type : TypeName) (name : String)
      {tokens : List Token} {init : Option Expr}
      (hinit : DerivesInit stop tokens init) :
      DerivesVariable
        (⟨.type type, start⟩ :: ⟨.identifier name, middle⟩ :: tokens)
        { type := type.spelling, name := name, init := init,
          span := start.cover stop }

/-- An expression and the semicolon at `stop`. -/
inductive DerivesEvaluation (stop : Span) : List Token → Expr → Prop
  | intro {tokens : List Token} {expr : Expr}
      (hexpr : DerivesExpr .expression tokens expr) :
      DerivesEvaluation stop (tokens ++ [⟨.symbol .semicolon, stop⟩]) expr

/-- An expression between the parentheses of an `if` or a `while`. -/
inductive DerivesCondition : List Token → Expr → Prop
  | intro (opening closing : Span) {tokens : List Token} {expr : Expr}
      (hexpr : DerivesExpr .expression tokens expr) :
      DerivesCondition
        (⟨.symbol .openParen, opening⟩ ::
          (tokens ++ [⟨.symbol .closeParen, closing⟩]))
        expr

mutual

/-- Statements. -/
inductive DerivesStmt : List Token → Stmt → Prop
  | declare {tokens : List Token} {decl : VariableDecl}
      (hdecl : DerivesVariable tokens decl) :
      DerivesStmt tokens (.declare decl)
  | evaluate (stop : Span) {tokens : List Token} {expr : Expr}
      (hexpr : DerivesEvaluation stop tokens expr) :
      DerivesStmt tokens (.evaluate (expr.span.cover stop) expr)
  | ifThen (start : Span) {conditionTokens tokens : List Token}
      {condition : Expr} {body : Block}
      (hcondition : DerivesCondition conditionTokens condition)
      (hbody : DerivesBlock tokens body) :
      DerivesStmt (⟨.keyword .ifWord, start⟩ :: (conditionTokens ++ tokens))
        (.ifThen (start.cover body.span) condition body)
  | ifElse (start middle : Span) {conditionTokens trueTokens falseTokens : List Token}
      {condition : Expr} {onTrue onFalse : Block}
      (hcondition : DerivesCondition conditionTokens condition)
      (htrue : DerivesBlock trueTokens onTrue)
      (hfalse : DerivesBlock falseTokens onFalse) :
      DerivesStmt
        (⟨.keyword .ifWord, start⟩ ::
          (conditionTokens ++
            (trueTokens ++ ⟨.keyword .elseWord, middle⟩ :: falseTokens)))
        (.ifElse (start.cover onFalse.span) condition onTrue onFalse)
  | loop (start : Span) {conditionTokens tokens : List Token}
      {condition : Expr} {body : Block}
      (hcondition : DerivesCondition conditionTokens condition)
      (hbody : DerivesBlock tokens body) :
      DerivesStmt (⟨.keyword .whileWord, start⟩ :: (conditionTokens ++ tokens))
        (.loop (start.cover body.span) condition body)
  | leave (start stop : Span) :
      DerivesStmt [⟨.keyword .returnWord, start⟩, ⟨.symbol .semicolon, stop⟩]
        (.leave (start.cover stop) none)
  | leaveWith (start stop : Span) {tokens : List Token} {value : Expr}
      (hvalue : DerivesEvaluation stop tokens value) :
      DerivesStmt (⟨.keyword .returnWord, start⟩ :: tokens)
        (.leave (start.cover stop) (some value))
  | nest {tokens : List Token} {block : Block}
      (hblock : DerivesBlock tokens block) :
      DerivesStmt tokens (.nest block)

/-- Statements between braces. -/
inductive DerivesBlock : List Token → Block → Prop
  | intro (start stop : Span) {tokens : List Token} {stmts : List Stmt}
      (hstmts : DerivesStmts tokens stmts) :
      DerivesBlock
        (⟨.symbol .openBrace, start⟩ :: (tokens ++ [⟨.symbol .closeBrace, stop⟩]))
        (.mk (start.cover stop) stmts)

/-- Statements, one after the other. -/
inductive DerivesStmts : List Token → List Stmt → Prop
  | nil : DerivesStmts [] []
  | cons {tokens rest : List Token} {stmt : Stmt} {stmts : List Stmt}
      (hstmt : DerivesStmt tokens stmt) (hrest : DerivesStmts rest stmts) :
      DerivesStmts (tokens ++ rest) (stmt :: stmts)

end

/-- A parameter: a type and a name. -/
inductive DerivesParameter : List Token → Parameter → Prop
  | intro (start stop : Span) (type : TypeName) (name : String) :
      DerivesParameter [⟨.type type, start⟩, ⟨.identifier name, stop⟩]
        { type := type.spelling, name := name, span := start.cover stop }

/-- One or more parameters separated by commas. -/
inductive DerivesParameters : List Token → List Parameter → Prop
  | last {tokens : List Token} {param : Parameter}
      (hparam : DerivesParameter tokens param) :
      DerivesParameters tokens [param]
  | more (comma : Span) {tokens rest : List Token} {param : Parameter}
      {params : List Parameter} (hparam : DerivesParameter tokens param)
      (hrest : DerivesParameters rest params) :
      DerivesParameters (tokens ++ ⟨.symbol .comma, comma⟩ :: rest)
        (param :: params)

/-- What may stand between the parentheses of a function.  Nothing between them
is no parameter list. -/
inductive DerivesParameterList : List Token → Option (List Parameter) → Prop
  | absent : DerivesParameterList [] none
  | present {tokens : List Token} {params : List Parameter}
      (hparams : DerivesParameters tokens params) :
      DerivesParameterList tokens (some params)

/-- What may stand at the top level. -/
inductive DerivesItem : List Token → Item → Prop
  | global {tokens : List Token} {decl : VariableDecl}
      (hdecl : DerivesVariable tokens decl) :
      DerivesItem tokens (.global decl)
  | function (start middle opening closing : Span) (type : TypeName)
      (name : String) {paramTokens tokens : List Token}
      {params : Option (List Parameter)} {body : Block}
      (hparams : DerivesParameterList paramTokens params)
      (hbody : DerivesBlock tokens body) :
      DerivesItem
        (⟨.type type, start⟩ :: ⟨.identifier name, middle⟩ ::
          ⟨.symbol .openParen, opening⟩ ::
            (paramTokens ++ ⟨.symbol .closeParen, closing⟩ :: tokens))
        (.function
          { returnType := type.spelling, name := name, params := params,
            body := some body, span := start.cover body.span })
  | expression (stop : Span) {tokens : List Token} {expr : Expr}
      (hexpr : DerivesEvaluation stop tokens expr) :
      DerivesItem tokens (.expression (expr.span.cover stop) expr)

/-- Items, one after the other. -/
inductive DerivesItems : List Token → List Item → Prop
  | nil : DerivesItems [] []
  | cons {tokens rest : List Token} {item : Item} {items : List Item}
      (hitem : DerivesItem tokens item) (hrest : DerivesItems rest items) :
      DerivesItems (tokens ++ rest) (item :: items)

/-- A whole program: its items, and nothing besides them. -/
def DerivesProgram (tokens : List Token) (program : Program) : Prop :=
  DerivesItems tokens program.items

end DeclCheck.Grammar
