import DeclCheck.Proofs.Relocate
import DeclCheck.Proofs.Parser.Runs

/-!
# Reading does not depend on places

A parser decides by the kinds of tokens and by the depth, never by a span, and the spans
of its answer cover those of the tokens.  So a run over tokens at other places is the
run over the tokens where they are, with the same change of places in all it answers, no
matter whether it succeeds, fails or recovers from errors on the way.
-/

namespace DeclCheck

section Places

variable (move : Span → Span)

def Report.relocate (report : Report) : Report where
  error := report.error.relocate move
  raisedAt := move report.raisedAt

def ParserState.relocate (state : ParserState) : ParserState where
  tokens := state.tokens.map (Token.relocate move)
  endSpan := move state.endSpan
  depth := state.depth
  reports := state.reports.map (Report.relocate move)

@[simp]
theorem ParserState.current_relocate (state : ParserState) :
    (state.relocate move).current = state.current.relocate move := by
  cases htokens : state.tokens with
  | nil => simp [current, relocate, htokens, Token.relocate]
  | cons token rest => simp [current, relocate, htokens]

end Places

namespace Parser

variable {α β : Type}

/-- What a run answers, at other places; `change` moves what is in the value. -/
def relocateResult (move : Span → Span) (change : α → α) :
    EStateM.Result SyntaxError ParserState α →
      EStateM.Result SyntaxError ParserState α
  | .ok value after => .ok (change value) (after.relocate move)
  | .error error after => .error (error.relocate move) (after.relocate move)

/-- The first parser does at other places what the second one does where the tokens
are. -/
def Mirrors (move : Span → Span) (change : α → α) (moved placed : Parser α) : Prop :=
  ∀ state, moved (state.relocate move) = relocateResult move change (placed state)

/-- The parser does the same at other places. -/
def Equivariant (move : Span → Span) (change : α → α) (parser : Parser α) : Prop :=
  Mirrors move change parser parser

variable {move : Span → Span}

/-! ## Parsers at the bottom -/

theorem mirrors_pure {change : α → α} {moved value : α} (hvalue : moved = change value) :
    Mirrors move change (pure moved) (pure value) := by
  intro state
  rw [hvalue]
  rfl

theorem mirrors_throw (change : α → α) (error : SyntaxError) :
    Mirrors move change (throw (error.relocate move)) (throw error) :=
  fun _ => rfl

theorem Mirrors.bind {change : α → α} {changeNext : β → β} {moved placed : Parser α}
    {nextMoved nextPlaced : α → Parser β} (hparser : Mirrors move change moved placed)
    (hnext : ∀ value,
      Mirrors move changeNext (nextMoved (change value)) (nextPlaced value)) :
    Mirrors move changeNext (moved >>= nextMoved) (placed >>= nextPlaced) := by
  intro state
  have hrun := hparser state
  cases hplaced : placed state with
  | ok value after =>
      rw [hplaced, relocateResult] at hrun
      rw [bind_of_ok nextMoved hrun, bind_of_ok nextPlaced hplaced]
      exact hnext value after
  | error error after =>
      rw [hplaced, relocateResult] at hrun
      rw [bind_of_error nextMoved hrun, bind_of_error nextPlaced hplaced]
      rfl

theorem Mirrors.map {change : α → α} {changeMapped : β → β} {moved placed : Parser α}
    (hparser : Mirrors move change moved placed) (f : α → β)
    (hcommutes : ∀ value, f (change value) = changeMapped (f value)) :
    Mirrors move changeMapped (f <$> moved) (f <$> placed) := by
  rw [map_eq_bind, map_eq_bind]
  apply hparser.bind
  intro value
  exact mirrors_pure (hcommutes value)

theorem mirrors_peek : Equivariant move (Token.relocate move) peek := by
  intro state
  rw [peek_apply, peek_apply, ParserState.current_relocate]
  rfl

theorem mirrors_shift : Equivariant move (Token.relocate move) shift := by
  intro state
  rw [shift, shift, ParserState.current_relocate]
  simp [relocateResult, ParserState.relocate]

theorem mirrors_tokensLeft : Equivariant move id tokensLeft := by
  intro state
  simp [relocateResult, ParserState.relocate]

theorem mirrors_at? (mark : Symbol) : Equivariant move id (at? mark) := by
  intro state
  rw [at?_apply, at?_apply, ParserState.current_relocate]
  rfl

theorem mirrors_reject (change : α → α) (wanted : Expectation) :
    Equivariant move change (reject wanted) := by
  apply mirrors_peek.bind
  intro found
  exact mirrors_throw change { cause := .mismatch wanted found.kind, span := found.span }

theorem mirrors_tooDeep (change : α → α) (construct : Construct) :
    Equivariant move change (tooDeep construct) := by
  apply mirrors_peek.bind
  intro found
  exact mirrors_throw change { cause := .tooDeep construct, span := found.span }

/-- A choice by the next symbol. -/
theorem mirrors_ifAt {change : α → α} (mark : Symbol)
    {movedThere placedThere movedElse placedElse : Parser α}
    (hthere : Mirrors move change movedThere placedThere)
    (helse : Mirrors move change movedElse placedElse) :
    Mirrors move change (do if ← at? mark then movedThere else movedElse)
      (do if ← at? mark then placedThere else placedElse) := by
  apply (mirrors_at? mark).bind
  intro found
  cases found with
  | true => exact hthere
  | false => exact helse

/-- What is answered together with its span moves with it. -/
def changePlace (move : Span → Span) (change : α → α) (placed : α × Span) : α × Span :=
  (change placed.1, move placed.2)

theorem mirrors_symbol (mark : Symbol) :
    Equivariant move move (symbol mark) := by
  apply mirrors_ifAt mark
  · apply mirrors_shift.bind
    intro token
    exact mirrors_pure rfl
  · exact mirrors_reject _ _

theorem mirrors_identifier : Equivariant move (changePlace move id) identifier := by
  apply mirrors_peek.bind
  intro token
  dsimp only [Token.relocate]
  cases token.kind with
  | identifier name =>
      apply mirrors_shift.bind
      intro shifted
      exact mirrors_pure rfl
  | _ => exact mirrors_reject _ _

theorem mirrors_typeName : Equivariant move (changePlace move id) typeName := by
  apply mirrors_peek.bind
  intro token
  dsimp only [Token.relocate]
  cases token.kind with
  | type name =>
      apply mirrors_shift.bind
      intro shifted
      exact mirrors_pure rfl
  | _ => exact mirrors_reject _ _

theorem mirrors_spend (cost : Nat) (construct : Construct) :
    Equivariant move id (spend cost construct) := by
  intro state
  have hdepth : (state.relocate move).depth = state.depth := rfl
  by_cases hdeep : state.depth + cost > nestingBudget
  · rw [spend_of_gt construct hdeep, spend_of_gt construct (hdepth ▸ hdeep),
      ParserState.current_relocate]
    rfl
  · have hleft := Nat.le_of_not_gt hdeep
    rw [spend_of_le construct hleft, spend_of_le construct (hdepth ▸ hleft)]
    rfl

theorem Mirrors.keepingDepth {change : α → α} {moved placed : Parser α}
    (hparser : Mirrors move change moved placed) :
    Mirrors move change (keepingDepth moved) (keepingDepth placed) := by
  intro state
  rw [Parser.keepingDepth, Parser.keepingDepth, hparser state]
  cases placed state with
  | ok value after => rfl
  | error error after => rfl

theorem Mirrors.budgeted {change : α → α} {moved placed : Parser α} (cost : Nat)
    (construct : Construct) (hparser : Mirrors move change moved placed) :
    Mirrors move change (budgeted cost construct moved) (budgeted cost construct placed) := by
  intro state
  have hboth : Mirrors move change (spend cost construct >>= fun _ => moved)
      (spend cost construct >>= fun _ => placed) :=
    (mirrors_spend cost construct).bind fun _ => hparser
  rw [budgeted_apply, budgeted_apply, hboth state]
  cases (spend cost construct >>= fun _ => placed) state with
  | ok value after => rfl
  | error error after => rfl

/-! ## Lists -/

theorem mirrors_moreAfterComma {change : α → α} {element : Parser α}
    (helement : Equivariant move change element) (bound : Nat) :
    Equivariant move (List.map change) (moreAfterComma element bound) := by
  induction bound with
  | zero => exact mirrors_pure rfl
  | succ bound ih =>
      apply mirrors_ifAt .comma
      · apply mirrors_shift.bind
        intro comma
        apply helement.bind
        intro next
        apply ih.bind
        intro rest
        exact mirrors_pure rfl
      · exact mirrors_pure rfl

theorem mirrors_separatedByCommas {change : α → α} {element : Parser α}
    (helement : Equivariant move change element) :
    Equivariant move (List.map change) (separatedByCommas element) := by
  apply helement.bind
  intro first
  apply mirrors_tokensLeft.bind
  intro left
  apply (mirrors_moreAfterComma helement left).bind
  intro rest
  exact mirrors_pure rfl

/-! ## Recovery -/

theorem resume_map_relocate (tokens : List Token) :
    resume (tokens.map (Token.relocate move)) = (resume tokens).map (Token.relocate move) := by
  induction tokens with
  | nil => rfl
  | cons token rest ih =>
      have hkind : (token.relocate move).kind = token.kind := rfl
      rw [List.map_cons, resume, resume, hkind, ih]
      by_cases hsemicolon : token.kind = .symbol .semicolon
      · rw [if_pos hsemicolon, if_pos hsemicolon]
      · rw [if_neg hsemicolon, if_neg hsemicolon]
        by_cases hbrace : token.kind = .symbol .closeBrace
        · rw [if_pos hbrace, if_pos hbrace, List.map_cons]
        · rw [if_neg hbrace, if_neg hbrace]

theorem Equivariant.recover {change : α → α} {parser : Parser α}
    (hparser : Equivariant move change parser) (state : ParserState) :
    recover parser (state.relocate move) =
      ((recover parser state).1.map change, ((recover parser state).2.relocate move)) := by
  rw [Parser.recover, Parser.recover, hparser state]
  cases parser state with
  | ok value after => rfl
  | error error after =>
      have hspan : (after.relocate move).current.span = move after.current.span := by
        rw [ParserState.current_relocate]
        rfl
      simp only [relocateResult, hspan]
      simp [ParserState.relocate, resume_map_relocate, Report.relocate]

theorem atBlockEnd_relocate (state : ParserState) :
    atBlockEnd (state.relocate move) = atBlockEnd state := by
  rw [atBlockEnd, atBlockEnd, ParserState.current_relocate]
  rfl

/-- One round answers the moved statement, and so does the loop for all rounds. -/
theorem statementsWithin_relocate {statement : Parser Stmt}
    (hstatement : Equivariant move (Stmt.relocate move) statement) (bound : Nat) :
    ∀ state : ParserState, statementsWithin statement bound (state.relocate move) =
      ((statementsWithin statement bound state).1.map (Stmt.relocate move),
        ((statementsWithin statement bound state).2.relocate move)) := by
  induction bound with
  | zero => exact fun state => rfl
  | succ bound ih =>
      intro state
      rw [statementsWithin, statementsWithin, atBlockEnd_relocate]
      cases atBlockEnd state with
      | true => rfl
      | false =>
          simp only [Bool.false_eq_true, if_false, hstatement.recover state, ih,
            List.map_append]
          cases (recover statement state).1 <;> rfl

theorem mirrors_statements {statement : Parser Stmt}
    (hstatement : Equivariant move (Stmt.relocate move) statement) :
    Equivariant move (List.map (Stmt.relocate move)) (statements statement) := by
  intro state
  have hlength : (state.relocate move).tokens.length = state.tokens.length := List.length_map _
  rw [statements, statements, hlength, statementsWithin_relocate hstatement]
  rfl

theorem dropCloseBrace_map_relocate (tokens : List Token) :
    dropCloseBrace (tokens.map (Token.relocate move)) =
      (dropCloseBrace tokens).map (Token.relocate move) := by
  cases tokens with
  | nil => rfl
  | cons token rest =>
      have hkind : (token.relocate move).kind = token.kind := rfl
      rw [List.map_cons, dropCloseBrace, dropCloseBrace, hkind]
      by_cases hbrace : token.kind = .symbol .closeBrace
      · rw [if_pos hbrace, if_pos hbrace]
      · rw [if_neg hbrace, if_neg hbrace, List.map_cons]

/-! ## Expressions -/

/-- A literal is answered with the span of its token. -/
theorem mirrors_literal (literal : Span → Expr)
    (hliteral : ∀ span, (literal span).relocate move = literal (move span)) :
    Equivariant move (Expr.relocate move) (do return literal (← shift).span) := by
  apply mirrors_shift.bind
  intro token
  exact mirrors_pure (hliteral token.span).symm

theorem mirrors_arguments {expression : Parser Expr}
    (hexpression : Equivariant move (Expr.relocate move) expression) :
    Equivariant move (changePlace move (Expr.relocateEach move)) (arguments expression) := by
  have hclosed : ∀ args : List Expr, Mirrors move (changePlace move (Expr.relocateEach move))
      (do return ((Expr.relocateEach move) args, ← symbol .closeParen))
      (do return (args, ← symbol .closeParen)) := by
    intro args
    apply (mirrors_symbol .closeParen).bind
    intro stop
    exact mirrors_pure rfl
  apply mirrors_ifAt .closeParen
  · have hnone : Equivariant move (Expr.relocateEach move) (pure []) := mirrors_pure rfl
    exact hnone.bind hclosed
  · apply (mirrors_separatedByCommas hexpression).bind
    intro args
    rw [← Expr.relocateEach_eq_map]
    exact hclosed args

section Covered

variable (hmove : Span.CoverHom move)
include hmove

theorem mirrors_chainAfter (level : Precedence) {operand : Parser Expr}
    (hoperand : Equivariant move (Expr.relocate move) operand) (bound : Nat) :
    ∀ left : Expr, Mirrors move (Expr.relocate move)
      (chainAfter level operand bound (left.relocate move))
      (chainAfter level operand bound left) := by
  induction bound with
  | zero => exact fun left => mirrors_tooDeep _ _
  | succ bound ih =>
      intro left
      apply mirrors_peek.bind
      intro token
      dsimp only [Token.relocate]
      cases operator? level token.kind with
      | none => exact mirrors_pure rfl
      | some op =>
          apply mirrors_shift.bind
          intro mark
          apply (mirrors_spend _ _).bind
          intro _
          apply hoperand.bind
          intro right
          simpa [Expr.relocate, hmove.map_cover] using
            ih (.binary (left.span.cover right.span) op left right)

theorem mirrors_chain (level : Precedence) {operand : Parser Expr}
    (hoperand : Equivariant move (Expr.relocate move) operand) :
    Equivariant move (Expr.relocate move) (chain level operand) := by
  apply Mirrors.keepingDepth
  apply hoperand.bind
  exact mirrors_chainAfter hmove level hoperand _

theorem mirrors_binary {operand : Parser Expr}
    (hoperand : Equivariant move (Expr.relocate move) operand) :
    Equivariant move (Expr.relocate move) (binary operand) := by
  unfold binary
  generalize Precedence.all = levels
  induction levels with
  | nil => exact hoperand
  | cons level levels ih => exact mirrors_chain hmove level ih

theorem mirrors_unaryWithin {primary : Parser Expr}
    (hprimary : Equivariant move (Expr.relocate move) primary) (bound : Nat) :
    Equivariant move (Expr.relocate move) (unaryWithin primary bound) := by
  induction bound with
  | zero => exact mirrors_tooDeep _ _
  | succ bound ih =>
      apply mirrors_peek.bind
      intro token
      dsimp only [Token.relocate]
      cases token.kind.symbol?.bind UnaryOp.ofSymbol? with
      | none => exact hprimary
      | some op =>
          apply mirrors_shift.bind
          intro start
          apply (ih.budgeted _ _).bind
          intro operand
          apply mirrors_pure
          simp [Expr.relocate, Token.relocate, hmove.map_cover]

section Inside

variable {expression : Parser Expr} (hexpression : Equivariant move (Expr.relocate move) expression)
include hexpression

theorem mirrors_reference (name : String) :
    Equivariant move (Expr.relocate move) (reference expression name) := by
  apply mirrors_shift.bind
  intro start
  apply mirrors_ifAt .openParen
  · apply mirrors_shift.bind
    intro opening
    apply (mirrors_arguments hexpression).bind
    intro closed
    apply mirrors_pure
    simp [Expr.relocate, Token.relocate, hmove.map_cover]
  · exact mirrors_pure rfl

theorem mirrors_parenthesized :
    Equivariant move (Expr.relocate move) (parenthesized expression) := by
  apply (mirrors_symbol .openParen).bind
  intro start
  apply hexpression.bind
  intro inner
  apply (mirrors_symbol .closeParen).bind
  intro stop
  apply mirrors_pure
  simp [Expr.relocate, hmove.map_cover]

theorem mirrors_primary :
    Equivariant move (Expr.relocate move) (primary expression) := by
  apply mirrors_peek.bind
  intro token
  dsimp only [Token.relocate]
  cases token.kind with
  | integer text => exact mirrors_literal (.integer · text) fun _ => rfl
  | float text => exact mirrors_literal (.float · text) fun _ => rfl
  | string text => exact mirrors_literal (.string · text) fun _ => rfl
  | identifier name => exact mirrors_reference hmove hexpression name
  | keyword word =>
      cases word with
      | trueWord => exact mirrors_literal (.boolean · true) fun _ => rfl
      | falseWord => exact mirrors_literal (.boolean · false) fun _ => rfl
      | _ => exact mirrors_reject _ _
  | symbol mark =>
      cases mark with
      | openParen => exact mirrors_parenthesized hmove hexpression
      | _ => exact mirrors_reject _ _
  | type name => exact mirrors_reject _ _
  | eof => exact mirrors_reject _ _

theorem mirrors_assignment :
    Equivariant move (Expr.relocate move) (assignment expression) := by
  apply (mirrors_binary hmove
    (mirrors_unaryWithin hmove (mirrors_primary hmove hexpression) _)).bind
  intro left
  apply mirrors_ifAt .assign
  · cases left with
    | identifier start name =>
        apply mirrors_shift.bind
        intro mark
        apply hexpression.bind
        intro value
        apply mirrors_pure
        simp [Expr.relocate, hmove.map_cover]
    | _ => exact mirrors_throw _ { cause := .invalidTarget, span := _ }
  · exact mirrors_pure rfl

end Inside

theorem mirrors_expressionWithin (levels : Nat) :
    Equivariant move (Expr.relocate move) (expressionWithin levels) := by
  induction levels with
  | zero => exact mirrors_tooDeep _ _
  | succ levels ih => exact (mirrors_assignment hmove ih).budgeted _ _

theorem mirrors_expression : Equivariant move (Expr.relocate move) expression :=
  mirrors_expressionWithin hmove _

/-! ## Statements and blocks -/

theorem mirrors_someExpression :
    Equivariant move (Option.map (Expr.relocate move)) (some <$> expression) :=
  (mirrors_expression hmove).map some fun _ => rfl

theorem mirrors_variableAfter (type : TypeName) (start : Span) (name : String) :
    Mirrors move (VariableDecl.relocate move) (variableAfter type (move start) name)
      (variableAfter type start name) := by
  have hstop : ∀ init : Option Expr, Mirrors move (VariableDecl.relocate move)
      (do
        let stop ← symbol .semicolon
        return { type := type.spelling, name := name, init := init.map (Expr.relocate move),
                 span := (move start).cover stop })
      (do
        let stop ← symbol .semicolon
        return { type := type.spelling, name := name, init := init,
                 span := start.cover stop }) := by
    intro init
    apply (mirrors_symbol .semicolon).bind
    intro stop
    apply mirrors_pure
    simp [VariableDecl.relocate, hmove.map_cover]
  apply mirrors_ifAt .assign
  · apply mirrors_shift.bind
    intro mark
    exact (mirrors_someExpression hmove).bind hstop
  · have hnone : Equivariant move (Option.map (Expr.relocate move)) (pure none) :=
      mirrors_pure rfl
    exact hnone.bind hstop

theorem mirrors_variableDecl :
    Equivariant move (VariableDecl.relocate move) variableDecl := by
  apply mirrors_typeName.bind
  intro type
  apply mirrors_identifier.bind
  intro name
  exact mirrors_variableAfter hmove type.1 type.2 name.1

theorem mirrors_condition : Equivariant move (Expr.relocate move) condition := by
  apply (mirrors_symbol .openParen).bind
  intro opening
  apply (mirrors_expression hmove).bind
  intro expr
  apply (mirrors_symbol .closeParen).bind
  intro closing
  exact mirrors_pure rfl

theorem mirrors_leave : Equivariant move (Stmt.relocate move) leave := by
  apply mirrors_shift.bind
  intro start
  have hstop : ∀ value : Option Expr, Mirrors move (Stmt.relocate move)
      (do
        let stop ← symbol .semicolon
        return .leave ((move start.span).cover stop) (value.map (Expr.relocate move)))
      (do
        let stop ← symbol .semicolon
        return .leave (start.span.cover stop) value) := by
    intro value
    apply (mirrors_symbol .semicolon).bind
    intro stop
    apply mirrors_pure
    simp [Stmt.relocate, hmove.map_cover]
  apply mirrors_ifAt .semicolon
  · have hnone : Equivariant move (Option.map (Expr.relocate move)) (pure none) :=
      mirrors_pure rfl
    exact hnone.bind hstop
  · exact (mirrors_someExpression hmove).bind hstop

theorem mirrors_evaluation :
    Equivariant move (changePlace move (Expr.relocate move)) evaluation := by
  apply (mirrors_expression hmove).bind
  intro expr
  apply (mirrors_symbol .semicolon).bind
  intro stop
  apply mirrors_pure
  simp [changePlace, hmove.map_cover]

section Blocks

variable {block : Parser Block} (hblock : Equivariant move (Block.relocate move) block)
include hblock

theorem mirrors_conditional :
    Equivariant move (Stmt.relocate move) (conditional block) := by
  apply mirrors_shift.bind
  intro start
  apply (mirrors_condition hmove).bind
  intro test
  apply hblock.bind
  intro onTrue
  apply mirrors_peek.bind
  intro token
  change Mirrors move _ (if token.kind = .keyword .elseWord then _ else _) _
  by_cases helse : token.kind = .keyword .elseWord
  · rw [if_pos helse, if_pos helse]
    apply mirrors_shift.bind
    intro middle
    apply hblock.bind
    intro onFalse
    apply mirrors_pure
    simp [Stmt.relocate, Token.relocate, hmove.map_cover]
  · rw [if_neg helse, if_neg helse]
    apply mirrors_pure
    simp [Stmt.relocate, Token.relocate, hmove.map_cover]

theorem mirrors_whileLoop :
    Equivariant move (Stmt.relocate move) (whileLoop block) := by
  apply mirrors_shift.bind
  intro start
  apply (mirrors_condition hmove).bind
  intro test
  apply hblock.bind
  intro body
  apply mirrors_pure
  simp [Stmt.relocate, Token.relocate, hmove.map_cover]

theorem mirrors_statement :
    Equivariant move (Stmt.relocate move) (statement block) := by
  have hevaluated : ∀ evaluated : Expr × Span, Mirrors move (Stmt.relocate move)
      (pure (.evaluate (move evaluated.2) (evaluated.1.relocate move)))
      (pure (.evaluate evaluated.2 evaluated.1)) :=
    fun evaluated => mirrors_pure (by simp [Stmt.relocate])
  apply mirrors_peek.bind
  intro token
  dsimp only [Token.relocate]
  cases token.kind with
  | type name =>
      apply (mirrors_variableDecl hmove).bind
      intro decl
      apply mirrors_pure
      simp [Stmt.relocate]
  | keyword word =>
      cases word with
      | ifWord => exact mirrors_conditional hmove hblock
      | whileWord => exact mirrors_whileLoop hmove hblock
      | returnWord => exact mirrors_leave hmove
      | _ => exact (mirrors_evaluation hmove).bind hevaluated
  | symbol mark =>
      cases mark with
      | openBrace =>
          apply hblock.bind
          intro inner
          apply mirrors_pure
          simp [Stmt.relocate]
      | _ => exact (mirrors_evaluation hmove).bind hevaluated
  | _ => exact (mirrors_evaluation hmove).bind hevaluated

end Blocks

theorem mirrors_braced {statement : Parser Stmt}
    (hstatement : Equivariant move (Stmt.relocate move) statement) :
    Equivariant move (Block.relocate move) (braced statement) := by
  apply (mirrors_symbol .openBrace).bind
  intro start
  apply (mirrors_statements hstatement).bind
  intro stmts
  apply (mirrors_symbol .closeBrace).bind
  intro stop
  apply mirrors_pure
  rw [Block.relocate, Stmt.relocateEach_eq_map, hmove.map_cover]

theorem mirrors_blockWithin (levels : Nat) :
    Equivariant move (Block.relocate move) (blockWithin levels) := by
  induction levels with
  | zero => exact mirrors_tooDeep _ _
  | succ levels ih => exact (mirrors_braced hmove (mirrors_statement hmove ih)).budgeted _ _

theorem mirrors_block : Equivariant move (Block.relocate move) block :=
  mirrors_blockWithin hmove _

/-! ## Items -/

theorem mirrors_parameter : Equivariant move (Parameter.relocate move) parameter := by
  apply mirrors_typeName.bind
  intro type
  apply mirrors_identifier.bind
  intro name
  apply mirrors_pure
  rw [Parameter.relocate, hmove.map_cover]
  rfl

theorem mirrors_functionAfter (type : TypeName) (start : Span) (name : String) :
    Mirrors move (FunctionDecl.relocate move) (functionAfter type (move start) name)
      (functionAfter type start name) := by
  have hbody : ∀ params : Option (List Parameter), Mirrors move (FunctionDecl.relocate move)
      (do
        let _ ← symbol .closeParen
        let body ← block
        return { returnType := type.spelling, name := name,
                 params := params.map (List.map (Parameter.relocate move)), body := some body,
                 span := (move start).cover body.span })
      (do
        let _ ← symbol .closeParen
        let body ← block
        return { returnType := type.spelling, name := name, params := params,
                 body := some body, span := start.cover body.span }) := by
    intro params
    apply (mirrors_symbol .closeParen).bind
    intro closing
    apply (mirrors_block hmove).bind
    intro body
    apply mirrors_pure
    simp [FunctionDecl.relocate, hmove.map_cover]
  apply (mirrors_symbol .openParen).bind
  intro opening
  apply mirrors_ifAt .closeParen
  · have hnone : Equivariant move (Option.map (List.map (Parameter.relocate move))) (pure none) :=
      mirrors_pure rfl
    exact hnone.bind hbody
  · have hparams : Equivariant move (Option.map (List.map (Parameter.relocate move)))
        (some <$> separatedByCommas parameter) :=
      (mirrors_separatedByCommas (mirrors_parameter hmove)).map some fun _ => rfl
    exact hparams.bind hbody

theorem mirrors_declaration : Equivariant move (Item.relocate move) declaration := by
  apply mirrors_typeName.bind
  intro type
  apply mirrors_identifier.bind
  intro name
  apply mirrors_ifAt .openParen
  · apply (mirrors_functionAfter hmove type.1 type.2 name.1).bind
    intro function
    exact mirrors_pure rfl
  · apply (mirrors_variableAfter hmove type.1 type.2 name.1).bind
    intro decl
    exact mirrors_pure rfl

theorem mirrors_item : Equivariant move (Item.relocate move) item := by
  apply mirrors_peek.bind
  intro token
  dsimp only [Token.relocate]
  cases token.kind with
  | type name => exact mirrors_declaration hmove
  | _ =>
      apply (mirrors_evaluation hmove).bind
      intro evaluated
      exact mirrors_pure rfl

theorem itemStep_relocate (state : ParserState) :
    itemStep (state.relocate move) =
      ((itemStep state).1.map (Item.relocate move), (itemStep state).2.relocate move) := by
  rw [itemStep, itemStep, (mirrors_item hmove).recover state]
  rcases recover item state with ⟨read, after⟩
  cases read with
  | some read => rfl
  | none => simp [ParserState.relocate, dropCloseBrace_map_relocate]

theorem itemsWithin_relocate (bound : Nat) :
    ∀ state : ParserState, itemsWithin bound (state.relocate move) =
      ((itemsWithin bound state).1.map (Item.relocate move),
        (itemsWithin bound state).2.relocate move) := by
  induction bound with
  | zero => exact fun state => rfl
  | succ bound ih =>
      intro state
      have hkind : (state.relocate move).current.kind = state.current.kind := by
        rw [ParserState.current_relocate]
        rfl
      rw [itemsWithin, itemsWithin, hkind]
      by_cases heof : state.current.kind = .eof
      · rw [if_pos heof, if_pos heof]
        rfl
      · simp only [heof, if_false, itemStep_relocate hmove, ih, List.map_append]
        cases (itemStep state).1 <;> rfl

/-- Reading tokens at other places answers the items at those places, and files the
errors there. -/
theorem items_map_relocate (tokens : List Token) (endSpan : Span) :
    items (tokens.map (Token.relocate move)) (move endSpan) =
      ((items tokens endSpan).1.map (Item.relocate move),
        (items tokens endSpan).2.relocate move) := by
  rw [items, List.length_map]
  exact itemsWithin_relocate hmove tokens.length { tokens := tokens, endSpan := endSpan }

end Covered

end Parser

/-! ## Without places -/

/-- The error without its place. -/
def SyntaxError.bare (error : SyntaxError) : SyntaxError :=
  { error with span := {} }

/-- The report without the places of the error and of the token next to it. -/
def Report.bare (report : Report) : Report where
  error := report.error.bare
  raisedAt := {}

/-- The state with blank spans everywhere. -/
def ParserState.bare (state : ParserState) : ParserState where
  tokens := state.tokens.map Token.bare
  endSpan := {}
  depth := state.depth
  reports := state.reports.map Report.bare

/-- Reading bare tokens answers the bare items, and files the bare errors. -/
theorem Parser.items_map_bare (tokens : List Token) (endSpan : Span) :
    items (tokens.map Token.bare) {} =
      ((items tokens endSpan).1.map Item.bare, (items tokens endSpan).2.bare) := by
  rw [Token.bare_eq_relocate, Item.bare_eq]
  exact items_map_relocate Span.coverHom_blank tokens endSpan

end DeclCheck
