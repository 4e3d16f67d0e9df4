import DeclCheck.Proofs.Parser.Runs

/-!
# Induction over parsers

All parsers are put together in a few ways from a few parsers at the bottom.  A
property that survives each of them holds of every parser of expressions, and one that
survives the recovery inside a block as well holds of every parser there is.  This
module walks through the parsers once and for all; what is proved of them elsewhere
says only what happens at the bottom.
-/

namespace DeclCheck.Parser

/-- A property of parsers that passes from the parts of a parser to the whole, wherever
no more needs to be known of the parts.  A list with commas is a case of its own, since
its reader asks how many tokens are left. -/
structure Combining (holds : ∀ {α : Type}, Parser α → Prop) : Prop where
  pure : ∀ {α : Type} (value : α), holds (pure value)
  bind : ∀ {α β : Type} {parser : Parser α} {next : α → Parser β}, holds parser →
    (∀ value, holds (next value)) → holds (parser >>= next)
  peek : holds peek
  shift : holds shift
  reject : ∀ {α : Type} (wanted : Expectation), holds (reject wanted : Parser α)
  tooDeep : ∀ {α : Type}, holds (tooDeep .expression : Parser α)
  spend : ∀ cost : Nat, holds (spend cost .expression)
  keepingDepth : ∀ {α : Type} {parser : Parser α}, holds parser →
    holds (keepingDepth parser)
  budgeted : ∀ {α : Type} (cost : Nat) {parser : Parser α}, holds parser →
    holds (budgeted cost .expression parser)
  commas : ∀ {α : Type} {element : Parser α}, holds element →
    (∀ bound, holds (moreAfterComma element bound)) → holds (separatedByCommas element)

/-- A property that passes on to assignments as well, which complain of the place of an
expression that was read before. -/
structure Compositional (holds : ∀ {α : Type}, Parser α → Prop) : Prop
    extends Combining holds where
  assignment : ∀ levels : Nat, holds (expressionWithin levels) →
    holds (assignment (expressionWithin levels))

/-- A property that passes on to blocks as well, which take from the budget on their own
account and in which errors are recovered from. -/
structure Recovering (holds : ∀ {α : Type}, Parser α → Prop) : Prop
    extends Compositional holds where
  blockTooDeep : holds (Parser.tooDeep .block : Parser Block)
  braced : ∀ (levels : Nat), holds (blockWithin levels) →
    holds (Parser.budgeted constructCost .block (braced (statement (blockWithin levels))))

namespace Combining

variable {α β : Type} {holds : ∀ {α : Type}, Parser α → Prop}
variable (hholds : Combining holds)
include hholds

theorem map {parser : Parser α} (f : α → β) (hparser : holds parser) :
    holds (f <$> parser) := by
  rw [map_eq_bind]
  exact hholds.bind hparser fun value => hholds.pure (f value)

theorem at? (mark : Symbol) : holds (at? mark) :=
  hholds.bind hholds.peek fun _ => hholds.pure _

/-- A choice by the next symbol. -/
theorem ifAt (mark : Symbol) {there otherwise : Parser α} (hthere : holds there)
    (hotherwise : holds otherwise) :
    holds (do if ← Parser.at? mark then there else otherwise) := by
  apply hholds.bind (hholds.at? mark)
  intro found
  cases found with
  | true => exact hthere
  | false => exact hotherwise

theorem symbol (mark : Symbol) : holds (symbol mark) :=
  hholds.ifAt mark (hholds.bind hholds.shift fun _ => hholds.pure _) (hholds.reject _)

theorem identifier : holds identifier := by
  refine hholds.bind hholds.peek fun token => ?_
  split
  · exact hholds.bind hholds.shift fun _ => hholds.pure _
  · exact hholds.reject _

theorem typeName : holds typeName := by
  refine hholds.bind hholds.peek fun token => ?_
  split
  · exact hholds.bind hholds.shift fun _ => hholds.pure _
  · exact hholds.reject _

theorem moreAfterComma {element : Parser α} (helement : holds element) (bound : Nat) :
    holds (moreAfterComma element bound) := by
  induction bound with
  | zero => exact hholds.pure []
  | succ bound ih =>
      refine hholds.ifAt .comma ?_ (hholds.pure [])
      refine hholds.bind hholds.shift fun _ => ?_
      refine hholds.bind helement fun next => ?_
      exact hholds.bind ih fun rest => hholds.pure _

theorem separatedByCommas {element : Parser α} (helement : holds element) :
    holds (separatedByCommas element) :=
  hholds.commas helement (hholds.moreAfterComma helement)

/-! ## Expressions -/

theorem chainAfter (level : Precedence) {operand : Parser Expr}
    (hoperand : holds operand) (bound : Nat) :
    ∀ left, holds (chainAfter level operand bound left) := by
  induction bound with
  | zero => exact fun _ => hholds.tooDeep
  | succ bound ih =>
      intro left
      refine hholds.bind hholds.peek fun token => ?_
      split
      · exact hholds.pure left
      · refine hholds.bind hholds.shift fun _ => ?_
        refine hholds.bind (hholds.spend _) fun _ => ?_
        exact hholds.bind hoperand fun right => ih _

theorem chain (level : Precedence) {operand : Parser Expr} (hoperand : holds operand) :
    holds (chain level operand) :=
  hholds.keepingDepth
    (hholds.bind hoperand fun first => hholds.chainAfter level hoperand _ first)

theorem binary {operand : Parser Expr} (hoperand : holds operand) :
    holds (binary operand) := by
  unfold Parser.binary
  generalize Precedence.all = levels
  induction levels with
  | nil => exact hoperand
  | cons level levels ih => exact hholds.chain level ih

theorem unaryWithin {primary : Parser Expr} (hprimary : holds primary) (bound : Nat) :
    holds (unaryWithin primary bound) := by
  induction bound with
  | zero => exact hholds.tooDeep
  | succ bound ih =>
      refine hholds.bind hholds.peek fun token => ?_
      split
      · exact hprimary
      · refine hholds.bind hholds.shift fun _ => ?_
        exact hholds.bind (hholds.budgeted _ ih) fun operand => hholds.pure _

section Expression

variable {expression : Parser Expr} (hexpression : holds expression)
include hexpression

theorem arguments : holds (arguments expression) := by
  have hclosed : ∀ args : List Expr,
      holds (do return (args, ← Parser.symbol .closeParen)) :=
    fun args => hholds.bind (hholds.symbol _) fun stop => hholds.pure _
  exact hholds.ifAt .closeParen (hholds.bind (hholds.pure []) hclosed)
    (hholds.bind (hholds.separatedByCommas hexpression) hclosed)

theorem reference (name : String) : holds (reference expression name) := by
  refine hholds.bind hholds.shift fun start => ?_
  refine hholds.ifAt .openParen ?_ (hholds.pure _)
  refine hholds.bind hholds.shift fun _ => ?_
  exact hholds.bind (hholds.arguments hexpression) fun closed => hholds.pure _

theorem parenthesized : holds (parenthesized expression) := by
  refine hholds.bind (hholds.symbol _) fun start => ?_
  refine hholds.bind hexpression fun inner => ?_
  exact hholds.bind (hholds.symbol _) fun stop => hholds.pure _

theorem primary : holds (primary expression) := by
  refine hholds.bind hholds.peek fun token => ?_
  split
  · exact hholds.bind hholds.shift fun _ => hholds.pure _
  · exact hholds.bind hholds.shift fun _ => hholds.pure _
  · exact hholds.bind hholds.shift fun _ => hholds.pure _
  · exact hholds.bind hholds.shift fun _ => hholds.pure _
  · exact hholds.bind hholds.shift fun _ => hholds.pure _
  · exact hholds.reference hexpression _
  · exact hholds.parenthesized hexpression
  · exact hholds.reject _

/-- The operands of an assignment: everything that binds more tightly. -/
theorem operands : holds (Parser.binary (unary (Parser.primary expression))) :=
  hholds.binary (hholds.unaryWithin (hholds.primary hexpression) _)

/-- What an assignment does once it has read what may be its target. -/
theorem assignmentAfter
    (htarget : ∀ span, holds (throw { cause := .invalidTarget, span := span } : Parser Expr))
    (left : Expr) :
    holds (do
      if ← Parser.at? .assign then
        match left with
        | .identifier start name =>
            let _ ← Parser.shift
            let value ← expression
            return .assign (start.cover value.span) name value
        | _ => throw { cause := .invalidTarget, span := left.span }
      else return left) := by
  refine hholds.ifAt .assign ?_ (hholds.pure left)
  split
  · refine hholds.bind hholds.shift fun _ => ?_
    exact hholds.bind hexpression fun value => hholds.pure _
  · exact htarget _

theorem assignment
    (htarget : ∀ span, holds (throw { cause := .invalidTarget, span := span } : Parser Expr)) :
    holds (assignment expression) :=
  hholds.bind (hholds.operands hexpression) (hholds.assignmentAfter hexpression htarget)

end Expression

/-- Where it makes no difference what place a target has, nothing needs to be shown of
assignments. -/
theorem compositional
    (htarget : ∀ span, holds (throw { cause := .invalidTarget, span := span } : Parser Expr)) :
    Compositional holds :=
  ⟨hholds, fun _ hexpression => hholds.assignment hexpression htarget⟩

end Combining

namespace Compositional

variable {holds : ∀ {α : Type}, Parser α → Prop} (hholds : Compositional holds)
include hholds

theorem expressionWithin (levels : Nat) : holds (expressionWithin levels) := by
  induction levels with
  | zero => exact hholds.tooDeep
  | succ levels ih => exact hholds.budgeted _ (hholds.assignment levels ih)

theorem expression : holds expression :=
  hholds.expressionWithin _

/-! ## Statements -/

theorem variableAfter (type : TypeName) (start : Span) (name : String) :
    holds (variableAfter type start name) := by
  have hstop : ∀ init : Option Expr, holds (do
      let stop ← Parser.symbol .semicolon
      return { type := type.spelling, name := name, init := init,
               span := start.cover stop : VariableDecl }) :=
    fun init => hholds.bind (hholds.symbol _) fun stop => hholds.pure _
  refine hholds.ifAt .assign ?_ (hholds.bind (hholds.pure none) hstop)
  refine hholds.bind hholds.shift fun _ => ?_
  exact hholds.bind (hholds.map _ hholds.expression) hstop

theorem variableDecl : holds variableDecl := by
  refine hholds.bind hholds.typeName fun type => ?_
  exact hholds.bind hholds.identifier fun name => hholds.variableAfter _ _ _

theorem condition : holds condition := by
  refine hholds.bind (hholds.symbol _) fun _ => ?_
  refine hholds.bind hholds.expression fun expr => ?_
  exact hholds.bind (hholds.symbol _) fun _ => hholds.pure expr

theorem leave : holds leave := by
  refine hholds.bind hholds.shift fun start => ?_
  have hstop : ∀ value : Option Expr, holds (do
      let stop ← Parser.symbol .semicolon
      return Stmt.leave (start.span.cover stop) value) :=
    fun value => hholds.bind (hholds.symbol _) fun stop => hholds.pure _
  exact hholds.ifAt .semicolon (hholds.bind (hholds.pure none) hstop)
    (hholds.bind (hholds.map _ hholds.expression) hstop)

theorem evaluation : holds evaluation := by
  refine hholds.bind hholds.expression fun expr => ?_
  exact hholds.bind (hholds.symbol _) fun stop => hholds.pure _

theorem parameter : holds parameter := by
  refine hholds.bind hholds.typeName fun type => ?_
  exact hholds.bind hholds.identifier fun name => hholds.pure _

section Block

variable {block : Parser Block} (hblock : holds block)
include hblock

/-- What a conditional does once it has read its first block. -/
theorem alternative (start : Span) (test : Expr) (onTrue : Block) :
    holds (do
      if (← Parser.peek).kind = .keyword .elseWord then
        let _ ← Parser.shift
        let onFalse ← block
        return Stmt.ifElse (start.cover onFalse.span) test onTrue onFalse
      else return .ifThen (start.cover onTrue.span) test onTrue) := by
  refine hholds.bind hholds.peek fun token => ?_
  split
  · refine hholds.bind hholds.shift fun _ => ?_
    exact hholds.bind hblock fun onFalse => hholds.pure _
  · exact hholds.pure _

theorem conditional : holds (conditional block) := by
  refine hholds.bind hholds.shift fun start => ?_
  refine hholds.bind hholds.condition fun test => ?_
  exact hholds.bind hblock (hholds.alternative hblock _ test)

theorem whileLoop : holds (whileLoop block) := by
  refine hholds.bind hholds.shift fun start => ?_
  refine hholds.bind hholds.condition fun test => ?_
  exact hholds.bind hblock fun body => hholds.pure _

theorem statement : holds (statement block) := by
  refine hholds.bind hholds.peek fun token => ?_
  split
  · exact hholds.bind hholds.variableDecl fun decl => hholds.pure _
  · exact hholds.conditional hblock
  · exact hholds.whileLoop hblock
  · exact hholds.leave
  · exact hholds.bind hblock fun block => hholds.pure _
  · exact hholds.bind hholds.evaluation fun _ => hholds.pure _

end Block

/-- A property that passes on to all statements of a block passes on to the block. -/
theorem recovering (htooDeep : holds (Parser.tooDeep .block : Parser Block))
    (hbudgeted : ∀ {parser : Parser Block}, holds parser →
      holds (Parser.budgeted constructCost .block parser))
    (hstatements : ∀ levels : Nat, holds (Parser.statement (blockWithin levels)) →
      holds (statements (Parser.statement (blockWithin levels)))) :
    Recovering holds where
  toCompositional := hholds
  blockTooDeep := htooDeep
  braced levels hblock := by
    apply hbudgeted
    refine hholds.bind (hholds.symbol _) fun start => ?_
    refine hholds.bind (hstatements levels (hholds.statement hblock)) fun stmts => ?_
    exact hholds.bind (hholds.symbol _) fun stop => hholds.pure _

end Compositional

namespace Recovering

variable {holds : ∀ {α : Type}, Parser α → Prop} (hholds : Recovering holds)
include hholds

/-! ## Blocks and items -/

theorem blockWithin (levels : Nat) : holds (blockWithin levels) := by
  induction levels with
  | zero => exact hholds.blockTooDeep
  | succ levels ih => exact hholds.braced levels ih

theorem block : holds block :=
  hholds.blockWithin _

theorem functionAfter (type : TypeName) (start : Span) (name : String) :
    holds (functionAfter type start name) := by
  refine hholds.bind (hholds.symbol _) fun _ => ?_
  have hbody : ∀ params : Option (List Parameter), holds (do
      let _ ← Parser.symbol .closeParen
      let body ← Parser.block
      return { returnType := type.spelling, name := name, params := params,
               body := some body, span := start.cover body.span : FunctionDecl }) :=
    fun params => hholds.bind (hholds.symbol _) fun _ =>
      hholds.bind hholds.block fun body => hholds.pure _
  exact hholds.ifAt .closeParen (hholds.bind (hholds.pure none) hbody)
    (hholds.bind (hholds.map _ (hholds.separatedByCommas hholds.parameter)) hbody)

theorem declaration : holds declaration := by
  refine hholds.bind hholds.typeName fun type => ?_
  refine hholds.bind hholds.identifier fun name => ?_
  exact hholds.ifAt .openParen
    (hholds.bind (hholds.functionAfter _ _ _) fun _ => hholds.pure _)
    (hholds.bind (hholds.variableAfter _ _ _) fun _ => hholds.pure _)

theorem item : holds item := by
  refine hholds.bind hholds.peek fun token => ?_
  split
  · exact hholds.declaration
  · exact hholds.bind hholds.evaluation fun _ => hholds.pure _

end Recovering

end DeclCheck.Parser
