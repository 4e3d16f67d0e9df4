import DeclCheck.Proofs.Parser.Procedures

/-!
# The parsers take the steps of the procedures

The parsers that run are bounded: loops by the tokens that are left, chains and prefix
operators by the budget.  None of these bounds is ever met, so a parser takes the steps of
its procedure.  That the levels of nesting do not run out either takes an induction over
calls and is left for later.
-/

namespace DeclCheck.Parser

/-! ## Bounds by the budget -/

/-- The depth does not fall below what it was, nor rise above the budget. -/
def Deepens (before after : ParserState) : Prop :=
  before.depth ≤ after.depth ∧ after.depth ≤ max before.depth nestingBudget

theorem deepens_recoverClosed : RecoverClosed Deepens where
  refl _ := ⟨Nat.le_refl _, Nat.le_max_left _ _⟩
  trans hfirst hsecond := by
    obtain ⟨hfirst, hfirstMax⟩ := hfirst
    obtain ⟨hsecond, hsecondMax⟩ := hsecond
    exact ⟨by omega, by omega⟩
  deeper state cost hleft := ⟨Nat.le_add_right _ _, by dsimp only; omega⟩
  back _ := ⟨Nat.le_refl _, Nat.le_max_left _ _⟩
  shift _ := ⟨Nat.le_refl _, Nat.le_max_left _ _⟩
  file _ _ _ := ⟨Nat.le_refl _, Nat.le_max_left _ _⟩

theorem deepens_recovering : Recovering (Keeps Deepens) :=
  deepens_recoverClosed.recovering

/-- A round of a chain takes from the budget, and the rounds after it find that much less
left. -/
theorem chainAfter_congr (level : Precedence) {operand : Parser Expr}
    (hoperand : Keeps Deepens operand) {bound other : Nat} {state : ParserState} (left : Expr)
    (hmore : ∀ more after, state.depth < nestingBudget → state.depth < after.depth →
      chainAfter level operand bound more after = chainAfter level operand other more after) :
    chainAfter level operand (bound + 1) left state =
      chainAfter level operand (other + 1) left state := by
  refine bind_congr_ok fun token after hpeek => ?_
  cases hpeek
  cases operator? level state.current.kind with
  | none => rfl
  | some op =>
      refine bind_congr_ok fun _ shifted hshift => ?_
      cases hshift
      refine bind_congr_ok fun _ spent hspend => ?_
      obtain ⟨hleft, rfl⟩ := spend_eq_ok hspend
      refine bind_congr_ok fun right after hright => ?_
      have hdeeper := (hoperand.of_ok hright).1
      exact hmore _ after hleft hdeeper

/-- With more rounds than are left in the budget, one more changes nothing. -/
theorem chainAfter_succ (level : Precedence) {operand : Parser Expr}
    (hoperand : Keeps Deepens operand) (bound : Nat) :
    ∀ {state : ParserState} (left : Expr), nestingBudget ≤ state.depth + bound →
      chainAfter level operand (bound + 2) left state =
        chainAfter level operand (bound + 1) left state := by
  induction bound with
  | zero => exact fun left hbound => chainAfter_congr level hoperand left (by omega)
  | succ bound ih =>
      intro state left hbound
      refine chainAfter_congr level hoperand left fun more after _ hdeeper => ?_
      exact ih more (by omega)

/-- A prefix operator takes from the budget as well. -/
theorem unaryWithin_congr (primary : Parser Expr) {bound other : Nat} {state : ParserState}
    (hmore : ∀ after : ParserState, state.depth < nestingBudget → state.depth < after.depth →
      unaryWithin primary bound after = unaryWithin primary other after) :
    unaryWithin primary (bound + 1) state = unaryWithin primary (other + 1) state := by
  refine bind_congr_ok fun token after hpeek => ?_
  cases hpeek
  cases state.current.kind.symbol?.bind UnaryOp.ofSymbol? with
  | none => rfl
  | some op =>
      refine bind_congr_ok fun _ shifted hshift => ?_
      cases hshift
      refine bind_congr_run _ (budgeted_congr fun hleft => ?_)
      exact hmore _ hleft (Nat.lt_succ_self _)

theorem unaryWithin_succ (primary : Parser Expr) (bound : Nat) :
    ∀ {state : ParserState}, nestingBudget ≤ state.depth + bound →
      unaryWithin primary (bound + 2) state = unaryWithin primary (bound + 1) state := by
  induction bound with
  | zero => exact fun hbound => unaryWithin_congr primary (by omega)
  | succ bound ih =>
      intro state hbound
      refine unaryWithin_congr primary fun after _ hdeeper => ?_
      exact ih (by omega)

namespace Script

open Procedure (parserWithin)

variable {α : Type}

/-! ## Steps and parsers -/

section Basic

variable {Procedure : Type} {Answer : Procedure → Type}
variable {answers : ∀ procedure, Parser (Answer procedure)}

/-- A choice by the next symbol. -/
theorem run_ifAt_eq (mark : Symbol) {there otherwise : Script Answer α}
    {parserThere parserOtherwise : Parser α} (hthere : there.run answers = parserThere)
    (hotherwise : otherwise.run answers = parserOtherwise) :
    (do if ← at? mark then there else otherwise : Script Answer α).run answers =
      (do if ← Parser.at? mark then parserThere else parserOtherwise) := by
  refine run_bind_eq rfl fun found => ?_
  cases found with
  | true => exact hthere
  | false => exact hotherwise

theorem run_symbol (mark : Symbol) : (symbol mark).run answers = Parser.symbol mark :=
  run_ifAt_eq mark rfl rfl

theorem run_identifier : identifier.run answers = Parser.identifier := by
  refine run_bind_eq rfl fun token => ?_
  cases token.kind <;> rfl

theorem run_typeName : typeName.run answers = Parser.typeName := by
  refine run_bind_eq rfl fun token => ?_
  cases token.kind <;> rfl

theorem run_separatedByCommas {element : Script Answer α} {more : Script Answer (List α)}
    {parser : Parser α} (helement : element.run answers = parser)
    (hmore : more.run answers = tokensLeft >>= moreAfterComma parser) :
    (separatedByCommas element more).run answers = Parser.separatedByCommas parser := by
  refine run_bind_eq helement fun first => ?_
  exact run_bind_eq hmore fun rest => rfl

theorem run_afterComma {element : Script Answer α} {more : Script Answer (List α)}
    {parser : Parser α} (hshrinks : Keeps Shrinks parser)
    (helement : element.run answers = parser)
    (hmore : more.run answers = tokensLeft >>= moreAfterComma parser) :
    (afterComma element more).run answers = tokensLeft >>= moreAfterComma parser := by
  have hround : (afterComma element more).run answers = (do
      if ← Parser.at? .comma then
        let _ ← Parser.shift
        let next ← parser
        let rest ← tokensLeft >>= moreAfterComma parser
        return next :: rest
      else return []) := by
    refine run_ifAt_eq .comma (run_bind_eq rfl fun _ => ?_) rfl
    refine run_bind_eq helement fun next => ?_
    exact run_bind_eq hmore fun rest => rfl
  rw [hround]
  funext state
  rw [bind_of_ok _ (tokensLeft_apply state), ← moreAfterComma_succ hshrinks _ (Nat.le_refl _),
    moreAfterComma]
  refine bind_congr_ok fun found _ hfound => ?_
  cases hfound
  split
  · refine bind_congr_ok fun _ shifted hshift => bind_congr_ok fun next after hnext => ?_
    cases hshift
    have hlength := Nat.le_trans (hshrinks.of_ok hnext).length_le
      (List.tail_suffix state.tokens).length_le
    apply bind_congr_run
    exact (moreAfterComma_of_le hshrinks hlength).symm
  · rfl

end Basic

section Expression

variable (levels blocks : Nat)

theorem run_operand (level : Precedence) :
    (operand level).run (parserWithin levels blocks) = operandParser levels level := by
  cases level <;> rfl

theorem run_chain (level : Precedence) :
    (chain level).run (parserWithin levels blocks) =
      Parser.chain level (operandParser levels level) :=
  congrArg Parser.keepingDepth (run_bind_eq (run_operand levels blocks level) fun _ => rfl)

theorem run_chainAfter (level : Precedence) (left : Expr) :
    (chainAfter level left).run (parserWithin levels blocks) =
      Parser.chainAfter level (operandParser levels level) (nestingBudget + 1) left := by
  have hbound : Parser.chainAfter level (operandParser levels level) (nestingBudget + 2) left =
      Parser.chainAfter level (operandParser levels level) (nestingBudget + 1) left :=
    funext fun state => chainAfter_succ level (deepens_recovering.operandParser levels level)
      _ left (Nat.le_add_left _ _)
  rw [← hbound]
  refine run_bind_eq rfl fun token => ?_
  cases operator? level token.kind with
  | none => rfl
  | some op =>
      refine run_bind_eq rfl fun _ => run_bind_eq rfl fun _ => ?_
      exact run_bind_eq (run_operand levels blocks level) fun right => rfl

theorem run_unary :
    unary.run (parserWithin levels blocks) =
      Parser.unary (Parser.primary (expressionWithin levels)) := by
  have hbound : unaryWithin (Parser.primary (expressionWithin levels)) (nestingBudget + 2) =
      Parser.unary (Parser.primary (expressionWithin levels)) :=
    funext fun state => unaryWithin_succ _ _ (Nat.le_add_left _ _)
  rw [← hbound]
  refine run_bind_eq rfl fun token => ?_
  cases token.kind.symbol?.bind UnaryOp.ofSymbol? with
  | none => rfl
  | some op => rfl

theorem run_arguments :
    arguments.run (parserWithin levels blocks) =
      Parser.arguments (expressionWithin levels) := by
  have hclosed : ∀ args : List Expr,
      (do return (args, ← symbol .closeParen) : Script Procedure.Answer _).run
          (parserWithin levels blocks) =
        (do return (args, ← Parser.symbol .closeParen)) :=
    fun args => run_bind_eq (run_symbol _) fun stop => rfl
  refine run_ifAt_eq .closeParen (run_bind_eq rfl hclosed) (run_bind_eq ?_ hclosed)
  exact run_separatedByCommas rfl rfl

theorem run_reference (name : String) :
    (reference name).run (parserWithin levels blocks) =
      Parser.reference (expressionWithin levels) name :=
  run_bind_eq rfl fun _ => run_ifAt_eq .openParen rfl rfl

theorem run_parenthesized :
    parenthesized.run (parserWithin levels blocks) =
      Parser.parenthesized (expressionWithin levels) := by
  refine run_bind_eq (run_symbol _) fun start => ?_
  refine run_bind_eq rfl fun inner => ?_
  exact run_bind_eq (run_symbol _) fun stop => rfl

theorem run_primary :
    primary.run (parserWithin levels blocks) =
      Parser.primary (expressionWithin levels) := by
  refine run_bind_eq rfl fun token => ?_
  cases token.kind with
  | keyword word => cases word <;> rfl
  | symbol mark => cases mark <;> rfl
  | _ => rfl

theorem run_assignment :
    assignment.run (parserWithin levels blocks) =
      Parser.assignment (expressionWithin levels) := by
  refine run_bind_eq rfl fun left => ?_
  refine run_ifAt_eq .assign ?_ rfl
  cases left <;> rfl

end Expression

section Statement

variable (levels blocks : Nat)

theorem run_variableAfter (type : TypeName) (start : Span) (name : String) :
    (variableAfter type start name).run (parserWithin nestingLevels blocks) =
      Parser.variableAfter type start name := by
  have hstop : ∀ init : Option Expr, (do
        let stop ← symbol .semicolon
        return { type := type.spelling, name := name, init := init,
                 span := start.cover stop } : Script Procedure.Answer VariableDecl).run
          (parserWithin nestingLevels blocks) = (do
        let stop ← Parser.symbol .semicolon
        return { type := type.spelling, name := name, init := init,
                 span := start.cover stop }) :=
    fun init => run_bind_eq (run_symbol _) fun stop => rfl
  refine run_ifAt_eq .assign ?_ (run_bind_eq rfl hstop)
  exact run_bind_eq rfl fun _ => run_bind_eq (run_map_eq rfl some) hstop

theorem run_variableDecl :
    variableDecl.run (parserWithin levels blocks) = Parser.variableDecl := by
  refine run_bind_eq run_typeName fun type => ?_
  exact run_bind_eq run_identifier fun name => rfl

theorem run_condition :
    condition.run (parserWithin nestingLevels blocks) = Parser.condition := by
  refine run_bind_eq (run_symbol _) fun _ => ?_
  refine run_bind_eq rfl fun expr => ?_
  exact run_bind_eq (run_symbol _) fun _ => rfl

theorem run_leave :
    leave.run (parserWithin nestingLevels blocks) = Parser.leave := by
  refine run_bind_eq rfl fun start => ?_
  have hstop : ∀ value : Option Expr, (do
        let stop ← symbol .semicolon
        return .leave (start.span.cover stop) value : Script Procedure.Answer Stmt).run
          (parserWithin nestingLevels blocks) = (do
        let stop ← Parser.symbol .semicolon
        return .leave (start.span.cover stop) value) :=
    fun value => run_bind_eq (run_symbol _) fun stop => rfl
  exact run_ifAt_eq .semicolon (run_bind_eq rfl hstop)
    (run_bind_eq (run_map_eq rfl some) hstop)

theorem run_evaluation :
    evaluation.run (parserWithin nestingLevels blocks) = Parser.evaluation := by
  refine run_bind_eq rfl fun expr => ?_
  exact run_bind_eq (run_symbol _) fun stop => rfl

theorem run_conditional :
    conditional.run (parserWithin levels blocks) =
      Parser.conditional (blockWithin blocks) := by
  refine run_bind_eq rfl fun start => run_bind_eq rfl fun test => run_bind_eq rfl fun onTrue => ?_
  refine run_bind_eq rfl fun token => ?_
  split <;> rfl

theorem run_statement :
    statement.run (parserWithin levels blocks) =
      Parser.statement (blockWithin blocks) := by
  refine run_bind_eq rfl fun token => ?_
  cases token.kind with
  | keyword word => cases word <;> rfl
  | symbol mark => cases mark <;> rfl
  | _ => rfl

theorem run_statements :
    statements.run (parserWithin levels blocks) =
      Parser.statements (Parser.statement (blockWithin blocks)) := by
  have hshrinks := shrinks_recovering.statement (shrinks_recovering.blockWithin blocks)
  have hadvances := statement_advances (shrinks_recovering.blockWithin blocks)
    (blockWithin_advances blocks)
  funext state
  have hsteps : statements.run (parserWithin levels blocks) state =
      Script.run (parserWithin levels blocks)
        (if atBlockEnd state then pure []
         else do
          let read ← recover (invoke .statement)
          let rest ← invoke .statements
          return read.toList ++ rest) state := rfl
  rw [hsteps, Parser.statements, ← statementsWithin_succ hshrinks hadvances _ (Nat.le_refl _),
    statementsWithin]
  cases hend : atBlockEnd state with
  | true => rfl
  | false =>
      have hlength := recover_advances hshrinks hadvances hend
      simp only [Bool.false_eq_true, if_false]
      rw [statementsWithin_of_le hshrinks hadvances (Nat.le_of_lt hlength)]
      rfl

theorem run_braced :
    braced.run (parserWithin levels blocks) =
      Parser.braced (Parser.statement (blockWithin blocks)) := by
  refine run_bind_eq (run_symbol _) fun start => ?_
  refine run_bind_eq rfl fun stmts => ?_
  exact run_bind_eq (run_symbol _) fun stop => rfl

end Statement

section Item

variable (levels blocks : Nat)

theorem run_parameter :
    parameter.run (parserWithin levels blocks) = Parser.parameter := by
  refine run_bind_eq run_typeName fun type => ?_
  exact run_bind_eq run_identifier fun name => rfl

theorem run_functionAfter (type : TypeName) (start : Span) (name : String) :
    (functionAfter type start name).run (parserWithin levels nestingLevels) =
      Parser.functionAfter type start name := by
  refine run_bind_eq (run_symbol _) fun _ => ?_
  have hbody : ∀ params : Option (List Parameter), (do
        let _ ← symbol .closeParen
        let body : Block ← invoke .block
        return { returnType := type.spelling, name := name, params := params, body := some body,
                 span := start.cover body.span } : Script Procedure.Answer FunctionDecl).run
          (parserWithin levels nestingLevels) = (do
        let _ ← Parser.symbol .closeParen
        let body ← Parser.block
        return { returnType := type.spelling, name := name, params := params,
                 body := some body, span := start.cover body.span }) :=
    fun params => run_bind_eq (run_symbol _) fun _ => rfl
  refine run_ifAt_eq .closeParen (run_bind_eq rfl hbody) (run_bind_eq ?_ hbody)
  exact run_map_eq (run_separatedByCommas rfl rfl) some

theorem run_declaration :
    declaration.run (parserWithin levels blocks) = Parser.declaration := by
  refine run_bind_eq run_typeName fun type => ?_
  refine run_bind_eq run_identifier fun name => ?_
  exact run_ifAt_eq .openParen rfl rfl

theorem run_item : item.run (parserWithin levels blocks) = Parser.item := by
  refine run_bind_eq rfl fun token => ?_
  cases token.kind <;> rfl

/-- A closing brace is dropped by taking it. -/
theorem run_dropCloseBrace (value : α) (state : ParserState) :
    (do
      if ← at? .closeBrace then
        let _ ← shift
        return value
      else return value : Script Procedure.Answer α).run
        (parserWithin levels blocks) state =
      .ok value { state with tokens := dropCloseBrace state.tokens } := by
  obtain ⟨tokens, endSpan, depth, reports⟩ := state
  cases tokens with
  | nil => rfl
  | cons token rest =>
      rw [dropCloseBrace, run_ifAt_eq .closeBrace rfl rfl,
        bind_of_ok _ (at?_apply .closeBrace _)]
      by_cases hbrace : token.kind = .symbol .closeBrace
      · simp only [ParserState.current, hbrace, decide_true, if_true]
        rfl
      · simp only [ParserState.current, hbrace, decide_false, if_false]
        rfl

theorem run_itemStep (state : ParserState) :
    itemStep.run (parserWithin levels blocks) state =
      .ok (Parser.itemStep state).1 (Parser.itemStep state).2 := by
  have hrecover : (recover (invoke .item)).run (parserWithin levels blocks) state =
      .ok (Parser.recover Parser.item state).1 (Parser.recover Parser.item state).2 := rfl
  rw [itemStep, run_bind, bind_of_ok _ hrecover, Parser.itemStep]
  obtain ⟨read, after⟩ := Parser.recover Parser.item state
  cases read with
  | some read => rfl
  | none => exact run_dropCloseBrace levels blocks none after

theorem run_items :
    items.run (parserWithin levels blocks) = parserWithin levels blocks .items := by
  funext state
  have hsteps : items.run (parserWithin levels blocks) state =
      Script.run (parserWithin levels blocks)
        (if state.current.kind = .eof then pure []
         else do
          let read ← itemStep
          let rest ← invoke .items
          return read.toList ++ rest) state := rfl
  have hitems : parserWithin levels blocks .items state =
      .ok (itemsWithin (state.tokens.length + 1) state).1
        (itemsWithin (state.tokens.length + 1) state).2 := by
    rw [itemsWithin_succ _ (Nat.le_refl _)]
    rfl
  rw [hsteps, hitems, itemsWithin]
  by_cases heof : state.current.kind = .eof
  · rw [if_pos heof, if_pos heof]
    rfl
  · have hlength := itemStep_advances heof
    rw [if_neg heof, if_neg heof, run_bind, bind_of_ok _ (run_itemStep levels blocks state)]
    dsimp only
    rw [itemsWithin_of_le (Nat.le_of_lt hlength)]
    rfl

end Item

end Script

end DeclCheck.Parser
