import DeclCheck.Proofs.Parser.Nesting

/-!
# Expressions within the budget are read

An expression of the grammar is read wherever there is room for its cost.  The cost
is exact: it is also what every successful reading had room for.
-/

namespace DeclCheck

namespace Expr

/-- Every operator of a chain is paid for. -/
theorem chainLength_le_nesting (level : Precedence) (expr : Expr) :
    expr.chainLength level ≤ expr.nesting := by
  cases expr with
  | binary span op left right =>
      rw [chainLength, nesting]
      split
      · rename_i hlevel
        rw [hlevel, Nat.add_assoc]
        apply Nat.le_trans _ (Nat.le_max_right _ _)
        exact Nat.add_le_add_left (Nat.le_add_right _ _) _
      · exact Nat.zero_le _
  | _ => exact Nat.zero_le _

end Expr

namespace Parser

open Grammar

/-- There is room for the cost, both in the budget and in the levels of expressions
that may still be opened. -/
structure Room (levels : Nat) (state : ParserState) (cost : Nat) : Prop where
  budget : state.depth + cost ≤ nestingBudget
  levels : cost ≤ constructCost * levels

theorem Room.mono {levels less more : Nat} {state : ParserState}
    (hroom : Room levels state more) (hle : less ≤ more) : Room levels state less where
  budget := Nat.le_trans (Nat.add_le_add_left hle _) hroom.budget
  levels := Nat.le_trans hle hroom.levels

/-- Part of the cost may be spent first. -/
theorem Room.spent {levels price cost : Nat} {state : ParserState}
    (hroom : Room levels state (price + cost)) :
    Room levels (state.atDepth (state.depth + price)) cost where
  budget := (Nat.add_assoc _ _ _).symm ▸ hroom.budget
  levels := Nat.le_trans (Nat.le_add_left _ _) hroom.levels

/-- Where there is room for a construct, a level is left for it. -/
theorem Room.inside {levels cost : Nat} {state : ParserState}
    (hroom : Room levels state (constructCost + cost)) :
    ∃ fewer, levels = fewer + 1 ∧
      Room fewer (state.atDepth (state.depth + constructCost)) cost := by
  cases levels with
  | zero => exact absurd hroom.levels (by simp [constructCost])
  | succ fewer =>
      refine ⟨fewer, rfl, hroom.spent.budget, ?_⟩
      have hlevels := hroom.levels
      rw [Nat.mul_succ, Nat.add_comm] at hlevels
      exact Nat.le_of_add_le_add_right hlevels

/-- The loop of a chain gets behind the expression, with one round and one of the
budget gone for each operator. -/
def ChainRead (levels : Nat) (level : Precedence) (tokens : List Token)
    (expr : Expr) : Prop :=
  ∀ (state : ParserState) (rest : List Token), Room levels state expr.nesting →
    EndsBelow (level.rank + 1) (nextKind rest) →
    let operand := operandParser levels level
    ∃ rounds, rounds + expr.chainLength level = nestingBudget + 1 ∧
      (operand >>= chainAfter level operand (nestingBudget + 1))
          (state.moveTo (tokens ++ rest)) =
        chainAfter level operand rounds expr
          ((state.atDepth (state.depth + expr.chainLength level)).moveTo rest)

/-- What it means for each class that an expression is read where there is room. -/
def ClassRead : ExprClass → List Token → Expr → Prop
  | .expression, tokens, expr =>
      ∀ levels (state : ParserState) rest,
        Room levels state (constructCost + expr.nesting) → EndsExpr (nextKind rest) →
        expressionWithin levels (state.moveTo (tokens ++ rest)) =
          .ok expr (state.moveTo rest)
  | .level level, tokens, expr => ∀ levels, ChainRead levels level tokens expr
  | .prefixed, tokens, expr =>
      ∀ levels bound (state : ParserState) rest, Room levels state expr.nesting →
        expr.nesting < bound → nextKind rest ≠ .symbol .openParen →
        unaryWithin (primary (expressionWithin levels)) bound
            (state.moveTo (tokens ++ rest)) =
          .ok expr (state.moveTo rest)
  | .primary, tokens, expr =>
      ∀ levels (state : ParserState) rest, Room levels state expr.nesting →
        nextKind rest ≠ .symbol .openParen →
        primary (expressionWithin levels) (state.moveTo (tokens ++ rest)) =
          .ok expr (state.moveTo rest)

/-- The arguments are read where there is room for the costliest, be it after a
comma or from the first one on. -/
structure ArgsRead (tokens : List Token) (args : List Expr) : Prop where
  afterComma : ∀ levels (state : ParserState) (comma : Span) (others : List Token)
      (bound : Nat), Room levels state (Expr.nestingOfEach args) → tokens.length < bound →
    nextKind others = .symbol .closeParen →
    moreAfterComma (expressionWithin levels) bound
        (state.moveTo (⟨.symbol .comma, comma⟩ :: (tokens ++ others))) =
      .ok args (state.moveTo others)
  fromFirst : ∀ levels (state : ParserState) (others : List Token),
    Room levels state (Expr.nestingOfEach args) →
    nextKind others = .symbol .closeParen →
    separatedByCommas (expressionWithin levels) (state.moveTo (tokens ++ others)) =
      .ok args (state.moveTo others)

/-! ## Chains -/

theorem chainAfter_stop {level : Precedence} (operand : Parser Expr) (rounds : Nat)
    (left : Expr) (state : ParserState) {rest : List Token}
    (hends : EndsBelow level.rank (nextKind rest)) :
    chainAfter level operand (rounds + 1) left (state.moveTo rest) =
      .ok left (state.moveTo rest) := by
  rw [chainAfter, bind_of_ok _ (peek_apply _), kind_current_moveTo,
    operator?_of_endsBelow hends]
  rfl

theorem chainAfter_round {op : BinaryOp} (mark : Span) {operand : Parser Expr}
    (rounds : Nat) (left : Expr) {right : Expr} {state : ParserState}
    {tokens rest : List Token} (hspend : state.depth + operatorCost ≤ nestingBudget)
    (hright : operand ((state.atDepth (state.depth + operatorCost)).moveTo tokens) =
      .ok right ((state.atDepth (state.depth + operatorCost)).moveTo rest)) :
    chainAfter op.precedence operand (rounds + 1) left
        (state.moveTo (⟨.symbol op.symbol, mark⟩ :: tokens)) =
      chainAfter op.precedence operand rounds
        (.binary (left.span.cover right.span) op left right)
        ((state.atDepth (state.depth + operatorCost)).moveTo rest) := by
  have hop : operator? op.precedence (.symbol op.symbol) = some op :=
    operator?_eq_some_iff.mpr ⟨rfl, rfl⟩
  have hspent : spend operatorCost .expression (state.moveTo tokens) =
      .ok () ((state.atDepth (state.depth + operatorCost)).moveTo tokens) :=
    spend_of_le .expression hspend
  rw [chainAfter, bind_of_ok _ (peek_apply _), kind_current_moveTo, nextKind, hop]
  simp only [bind_of_ok _ (shift_moveTo _ _ _)]
  exact (bind_of_ok _ hspent).trans (bind_of_ok _ hright)

theorem chain_of_read {levels : Nat} {level : Precedence} {tokens : List Token}
    {expr : Expr} (hread : ChainRead levels level tokens expr) {state : ParserState}
    (hroom : Room levels state expr.nesting) {rest : List Token}
    (hends : EndsBelow level.rank (nextKind rest)) :
    chain level (operandParser levels level) (state.moveTo (tokens ++ rest)) =
      .ok expr (state.moveTo rest) := by
  obtain ⟨rounds, hrounds, hrun⟩ := hread state rest hroom (hends.mono (Nat.le_succ _))
  have hlength := expr.chainLength_le_nesting level
  have hbudget := hroom.budget
  cases rounds with
  | zero => omega
  | succ rounds =>
      rw [chainAfter_stop _ _ _ _ hends] at hrun
      rw [chain, keepingDepth, hrun]
      rfl

theorem operandParser_of_read {level : Precedence} {tokens : List Token} {expr : Expr}
    (hread : ClassRead (operands level) tokens expr) {levels : Nat} {state : ParserState}
    (hroom : Room levels state expr.nesting) {rest : List Token}
    (hends : EndsBelow (level.rank + 1) (nextKind rest)) :
    operandParser levels level (state.moveTo (tokens ++ rest)) =
      .ok expr (state.moveTo rest) := by
  cases level with
  | disjunction => exact chain_of_read (hread levels) hroom hends
  | conjunction => exact chain_of_read (hread levels) hroom hends
  | equality => exact chain_of_read (hread levels) hroom hends
  | comparison => exact chain_of_read (hread levels) hroom hends
  | sum => exact chain_of_read (hread levels) hroom hends
  | product =>
      have hnesting : expr.nesting < nestingBudget + 1 :=
        Nat.lt_succ_of_le (Nat.le_trans (Nat.le_add_left _ _) hroom.budget)
      exact hread levels _ state rest hroom hnesting hends.1

theorem chainRead_operand (level : Precedence) {tokens : List Token} {expr : Expr}
    (hderives : DerivesExpr (operands level) tokens expr)
    (hread : ClassRead (operands level) tokens expr) (levels : Nat) :
    ChainRead levels level tokens expr := by
  intro state rest hroom hends
  rw [hderives.chainLength_of_tighter (tighter_operands level)]
  exact ⟨_, rfl, bind_of_ok _ (operandParser_of_read hread hroom hends)⟩

/-- One more operator and operand take the loop one round further. -/
theorem chainRead_binary {op : BinaryOp} (mark : Span)
    {leftTokens rightTokens : List Token} {left right : Expr} {levels : Nat}
    (hleft : ChainRead levels op.precedence leftTokens left)
    (hright : ClassRead (operands op.precedence) rightTokens right) :
    ChainRead levels op.precedence
      (leftTokens ++ ⟨.symbol op.symbol, mark⟩ :: rightTokens)
      (.binary (left.span.cover right.span) op left right) := by
  intro state rest hroom hends
  rw [List.append_assoc, List.cons_append]
  rw [Expr.nesting] at hroom
  have hrightRoom := (hroom.mono (Nat.le_max_right _ _)).spent
  rw [← Nat.add_assoc] at hrightRoom
  have hspend := Nat.le_trans (Nat.le_add_right _ _) hrightRoom.budget
  obtain ⟨rounds, hrounds, hrun⟩ :=
    hleft state (⟨.symbol op.symbol, mark⟩ :: (rightTokens ++ rest))
      (hroom.mono (Nat.le_max_left _ _)) (endsBelow_symbol op)
  have hlength : (Expr.binary (left.span.cover right.span) op left right).chainLength
      op.precedence = left.chainLength op.precedence + 1 := if_pos rfl
  rw [hlength]
  cases rounds with
  | zero =>
      have hbudget : state.depth + left.chainLength op.precedence + 1 ≤ nestingBudget :=
        hspend
      omega
  | succ rounds =>
      refine ⟨rounds, by omega, hrun.trans ?_⟩
      exact chainAfter_round mark rounds left hspend
        (operandParser_of_read hright hrightRoom hends)

/-! ## Primaries -/

/-- The next token is, or is not, the symbol that decides between two parsers. -/
theorem ifAt_of_eq {α : Type} {mark : Symbol} {tokens : List Token}
    (hmark : nextKind tokens = .symbol mark) (whenThere otherwise : Parser α)
    (state : ParserState) :
    (do if ← at? mark then whenThere else otherwise : Parser α) (state.moveTo tokens) =
      whenThere (state.moveTo tokens) := by
  rw [bind_of_ok _ (at?_apply mark _), kind_current_moveTo, decide_eq_true hmark]
  rfl

theorem ifAt_of_ne {α : Type} {mark : Symbol} {tokens : List Token}
    (hmark : nextKind tokens ≠ .symbol mark) (whenThere otherwise : Parser α)
    (state : ParserState) :
    (do if ← at? mark then whenThere else otherwise : Parser α) (state.moveTo tokens) =
      otherwise (state.moveTo tokens) := by
  rw [bind_of_ok _ (at?_apply mark _), kind_current_moveTo, decide_eq_false hmark]
  rfl

theorem identifier_read (span : Span) (name : String) :
    ClassRead .primary [⟨.identifier name, span⟩] (.identifier span name) := by
  intro levels state rest _ hopen
  exact ifAt_of_ne hopen _ _ state

theorem parenthesized_read (start stop : Span) {tokens : List Token} {inner : Expr}
    (hinner : ClassRead .expression tokens inner) :
    ClassRead .primary
      (⟨.symbol .openParen, start⟩ :: (tokens ++ [⟨.symbol .closeParen, stop⟩]))
      (.paren (start.cover stop) inner) := by
  intro levels state rest hroom _
  rw [List.cons_append, List.append_assoc]
  have hrun := hinner levels state (⟨.symbol .closeParen, stop⟩ :: rest) hroom
    (endsExpr_of_mem (.inl rfl))
  have hparenthesized : parenthesized (expressionWithin levels)
      (state.moveTo (⟨.symbol .openParen, start⟩ ::
        (tokens ++ ⟨.symbol .closeParen, stop⟩ :: rest))) =
      .ok (.paren (start.cover stop) inner) (state.moveTo rest) := by
    rw [parenthesized, bind_of_ok _ (symbol_moveTo state _ _ _), bind_of_ok _ hrun,
      bind_of_ok _ (symbol_moveTo state _ _ _)]
    rfl
  exact hparenthesized

/-- A call is read where its arguments and the parenthesis behind them are. -/
theorem call_of_arguments {levels : Nat} {state : ParserState} {args : List Expr}
    {tokens rest : List Token} {stop : Span} (start opening : Span) (name : String)
    (hargs : arguments (expressionWithin levels) (state.moveTo tokens) =
      .ok (args, stop) (state.moveTo rest)) :
    primary (expressionWithin levels)
        (state.moveTo (⟨.identifier name, start⟩ :: ⟨.symbol .openParen, opening⟩ ::
          tokens)) =
      .ok (.call (start.cover stop) name args) (state.moveTo rest) := by
  have hreference : reference (expressionWithin levels) name
      (state.moveTo (⟨.identifier name, start⟩ :: ⟨.symbol .openParen, opening⟩ ::
        tokens)) =
      .ok (.call (start.cover stop) name args) (state.moveTo rest) := by
    rw [reference, bind_of_ok _ (shift_moveTo state _ _), ifAt_of_eq rfl,
      bind_of_ok _ (shift_moveTo state _ _), bind_of_ok _ hargs]
    rfl
  exact hreference

theorem emptyCall_read (start opening stop : Span) (name : String) :
    ClassRead .primary
      [⟨.identifier name, start⟩, ⟨.symbol .openParen, opening⟩,
        ⟨.symbol .closeParen, stop⟩]
      (.call (start.cover stop) name []) := by
  intro levels state rest _ _
  apply call_of_arguments
  exact ifAt_of_eq rfl _ _ state

theorem moreAfterComma_stop (element : Parser Expr) (bound : Nat) (state : ParserState)
    {others : List Token} (hclose : nextKind others = .symbol .closeParen) :
    moreAfterComma element bound (state.moveTo others) = .ok [] (state.moveTo others) := by
  cases bound with
  | zero => rfl
  | succ bound => exact ifAt_of_ne (by simp [hclose]) _ _ state

theorem moreAfterComma_round {element : Parser Expr} (comma : Span) {bound : Nat}
    {state : ParserState} {tokens middle others : List Token} {value : Expr}
    {values : List Expr}
    (hvalue : element (state.moveTo tokens) = .ok value (state.moveTo middle))
    (hvalues : moreAfterComma element bound (state.moveTo middle) =
      .ok values (state.moveTo others)) :
    moreAfterComma element (bound + 1)
        (state.moveTo (⟨.symbol .comma, comma⟩ :: tokens)) =
      .ok (value :: values) (state.moveTo others) := by
  rw [moreAfterComma, ifAt_of_eq rfl, bind_of_ok _ (shift_moveTo state _ _),
    bind_of_ok _ hvalue, bind_of_ok _ hvalues]
  rfl

theorem separatedByCommas_of_read {element : Parser Expr} {state : ParserState}
    {tokens middle others : List Token} {value : Expr} {values : List Expr}
    (hvalue : element (state.moveTo tokens) = .ok value (state.moveTo middle))
    (hvalues : moreAfterComma element middle.length (state.moveTo middle) =
      .ok values (state.moveTo others)) :
    separatedByCommas element (state.moveTo tokens) =
      .ok (value :: values) (state.moveTo others) := by
  rw [separatedByCommas, bind_of_ok _ hvalue, bind_of_ok _ (tokensLeft_apply _),
    ParserState.tokens_moveTo, bind_of_ok _ hvalues]
  rfl

theorem argsRead_last {tokens : List Token} {expr : Expr}
    (hexpr : ClassRead .expression tokens expr) : ArgsRead tokens [expr] := by
  have hread : ∀ levels (state : ParserState) (others : List Token),
      Room levels state (Expr.nestingOfEach [expr]) →
      nextKind others = .symbol .closeParen →
      expressionWithin levels (state.moveTo (tokens ++ others)) =
        .ok expr (state.moveTo others) := by
    intro levels state others hroom hclose
    apply hexpr levels state others (hroom.mono (Nat.le_max_left _ _))
    rw [hclose]
    exact endsExpr_of_mem (.inl rfl)
  constructor
  · intro levels state comma others bound hroom hbound hclose
    cases bound with
    | zero => exact absurd hbound (Nat.not_lt_zero _)
    | succ bound =>
        exact moreAfterComma_round comma (hread levels state others hroom hclose)
          (moreAfterComma_stop _ _ state hclose)
  · intro levels state others hroom hclose
    exact separatedByCommas_of_read (hread levels state others hroom hclose)
      (moreAfterComma_stop _ _ state hclose)

theorem argsRead_more (next : Span) {tokens rest : List Token} {expr : Expr}
    {exprs : List Expr} (hexpr : ClassRead .expression tokens expr)
    (hrest : ArgsRead rest exprs) :
    ArgsRead (tokens ++ ⟨.symbol .comma, next⟩ :: rest) (expr :: exprs) := by
  have hread : ∀ levels (state : ParserState) (others : List Token),
      Room levels state (Expr.nestingOfEach (expr :: exprs)) →
      expressionWithin levels
          (state.moveTo (tokens ++ ⟨.symbol .comma, next⟩ :: (rest ++ others))) =
        .ok expr (state.moveTo (⟨.symbol .comma, next⟩ :: (rest ++ others))) := by
    intro levels state others hroom
    exact hexpr levels state _ (hroom.mono (Nat.le_max_left _ _))
      (endsExpr_of_mem (.inr (.inl rfl)))
  constructor
  · intro levels state comma others bound hroom hbound hclose
    rw [List.length_append, List.length_cons] at hbound
    rw [List.append_assoc, List.cons_append]
    cases bound with
    | zero => exact absurd hbound (Nat.not_lt_zero _)
    | succ bound =>
        apply moreAfterComma_round comma (hread levels state others hroom)
        exact hrest.afterComma levels state next others bound
          (hroom.mono (Nat.le_max_right _ _)) (by omega) hclose
  · intro levels state others hroom hclose
    rw [List.append_assoc, List.cons_append]
    apply separatedByCommas_of_read (hread levels state others hroom)
    apply hrest.afterComma levels state next others _ (hroom.mono (Nat.le_max_right _ _)) _
      hclose
    rw [List.length_cons, List.length_append]
    omega

theorem call_read (start opening stop : Span) (name : String) {tokens : List Token}
    {args : List Expr}
    (hhead : ∃ token rest, tokens = token :: rest ∧ startsExpr token.kind = true)
    (hargs : ArgsRead tokens args) :
    ClassRead .primary
      (⟨.identifier name, start⟩ :: ⟨.symbol .openParen, opening⟩ ::
        (tokens ++ [⟨.symbol .closeParen, stop⟩]))
      (.call (start.cover stop) name args) := by
  intro levels state rest hroom _
  rw [List.cons_append, List.cons_append, List.append_assoc]
  apply call_of_arguments
  have hclose : nextKind (tokens ++ ⟨.symbol .closeParen, stop⟩ :: rest) ≠
      .symbol .closeParen := by
    obtain ⟨token, others, rfl, hstarts⟩ := hhead
    intro hkind
    rw [List.cons_append, nextKind] at hkind
    rw [hkind] at hstarts
    exact absurd hstarts (by decide)
  have hlist := hargs.fromFirst levels state (⟨.symbol .closeParen, stop⟩ :: rest) hroom rfl
  rw [arguments]
  refine (ifAt_of_ne hclose _ _ state).trans ?_
  rw [bind_of_ok _ hlist]
  exact bind_of_ok _ (symbol_moveTo state _ _ _)

/-! ## Prefix operators and assignment -/

theorem budgeted_read {cost : Nat} (construct : Construct) {parser : Parser Expr}
    {state : ParserState} {tokens rest : List Token} {expr : Expr}
    (hleft : state.depth + cost ≤ nestingBudget)
    (hrun : parser ((state.atDepth (state.depth + cost)).moveTo tokens) =
      .ok expr ((state.atDepth (state.depth + cost)).moveTo rest)) :
    budgeted cost construct parser (state.moveTo tokens) = .ok expr (state.moveTo rest) := by
  have hspent : spend cost construct (state.moveTo tokens) =
      .ok () ((state.atDepth (state.depth + cost)).moveTo tokens) :=
    spend_of_le construct hleft
  rw [budgeted_apply, bind_of_ok _ hspent, hrun]
  rfl

theorem prefixed_read_primary {tokens : List Token} {expr : Expr}
    (hprimary : DerivesExpr .primary tokens expr)
    (hread : ClassRead .primary tokens expr) : ClassRead .prefixed tokens expr := by
  intro levels bound state rest hroom hbound hopen
  cases bound with
  | zero => exact absurd hbound (Nat.not_lt_zero _)
  | succ bound =>
      have hnone : (nextKind (tokens ++ rest)).symbol?.bind UnaryOp.ofSymbol? = none := by
        cases hprimary <;> rfl
      rw [unaryWithin, bind_of_ok _ (peek_apply _), kind_current_moveTo, hnone]
      exact hread levels state rest hroom hopen

theorem prefixed_read_unary (start : Span) (op : UnaryOp) {tokens : List Token}
    {operand : Expr} (hoperand : ClassRead .prefixed tokens operand) :
    ClassRead .prefixed (⟨.symbol op.symbol, start⟩ :: tokens)
      (.unary (start.cover operand.span) op operand) := by
  intro levels bound state rest hroom hbound hopen
  rw [Expr.nesting] at hroom hbound
  cases bound with
  | zero => exact absurd hbound (Nat.not_lt_zero _)
  | succ bound =>
      have hop : (TokenKind.symbol op.symbol).symbol?.bind UnaryOp.ofSymbol? = some op := by
        cases op <;> rfl
      have hfewer : operand.nesting < bound := by
        rw [operatorCost] at hbound
        omega
      have hrun := budgeted_read .expression
        (Nat.le_trans (Nat.le_add_right _ _) hroom.spent.budget)
        (hoperand levels bound _ rest hroom.spent hfewer hopen)
      rw [unaryWithin, bind_of_ok _ (peek_apply _), kind_current_moveTo,
        List.cons_append, nextKind, hop]
      simp only [bind_of_ok _ (shift_moveTo _ _ _)]
      exact bind_of_ok _ hrun

/-- A name is read where a chain of the loosest operators may stand. -/
theorem name_read (start : Span) (name : String) :
    ClassRead (.level .disjunction) [⟨.identifier name, start⟩]
      (.identifier start name) :=
  have hprimary := DerivesExpr.identifier start name
  have hprefixed := prefixed_read_primary hprimary (identifier_read start name)
  have hproduct := chainRead_operand .product (.ofPrimary hprimary) hprefixed
  have hderivesProduct := DerivesExpr.ofOperand .product (.ofPrimary hprimary)
  have hsum := chainRead_operand .sum hderivesProduct hproduct
  have hderivesSum := DerivesExpr.ofOperand .sum hderivesProduct
  have hcomparison := chainRead_operand .comparison hderivesSum hsum
  have hderivesComparison := DerivesExpr.ofOperand .comparison hderivesSum
  have hequality := chainRead_operand .equality hderivesComparison hcomparison
  have hderivesEquality := DerivesExpr.ofOperand .equality hderivesComparison
  have hconjunction := chainRead_operand .conjunction hderivesEquality hequality
  chainRead_operand .disjunction (.ofOperand .conjunction hderivesEquality) hconjunction

/-- An expression is read where there is room for the construct and what follows the
first chain is what the caller says. -/
theorem expressionWithin_of_assignment {levels cost : Nat} {state : ParserState}
    {tokens rest : List Token} {expr : Expr}
    (hroom : Room levels state (constructCost + cost))
    (hassignment : ∀ fewer, let inside := state.atDepth (state.depth + constructCost)
      Room fewer inside cost →
        assignment (expressionWithin fewer) (inside.moveTo tokens) =
          .ok expr (inside.moveTo rest)) :
    expressionWithin levels (state.moveTo tokens) = .ok expr (state.moveTo rest) := by
  obtain ⟨fewer, rfl, hinside⟩ := hroom.inside
  have hleft : state.depth + constructCost ≤ nestingBudget :=
    Nat.le_trans (Nat.le_add_right _ _) hinside.budget
  exact budgeted_read .expression hleft (hassignment fewer hinside)

theorem expression_read_chain {tokens : List Token} {expr : Expr}
    (hchain : ClassRead (.level .disjunction) tokens expr) :
    ClassRead .expression tokens expr := by
  intro levels state rest hroom hends
  apply expressionWithin_of_assignment hroom
  intro fewer inside hinside
  have hrun : binary (unary (primary (expressionWithin fewer)))
      (inside.moveTo (tokens ++ rest)) = .ok expr (inside.moveTo rest) :=
    chain_of_read (hchain fewer) hinside hends.1
  rw [assignment, bind_of_ok _ hrun]
  exact ifAt_of_ne hends.2 _ _ inside

theorem expression_read_assign (start mark : Span) (name : String)
    {tokens : List Token} {value : Expr} (hvalue : ClassRead .expression tokens value) :
    ClassRead .expression
      (⟨.identifier name, start⟩ :: ⟨.symbol .assign, mark⟩ :: tokens)
      (.assign (start.cover value.span) name value) := by
  intro levels state rest hroom hends
  apply expressionWithin_of_assignment hroom
  intro fewer inside hinside
  have hassign : EndsBelow 0
      (nextKind (⟨.symbol .assign, mark⟩ :: (tokens ++ rest))) :=
    ⟨by simp [nextKind],
      fun op hop => by cases op <;> simp [nextKind, BinaryOp.symbol] at hop⟩
  have hname : binary (unary (primary (expressionWithin fewer)))
      (inside.moveTo (⟨.identifier name, start⟩ :: ⟨.symbol .assign, mark⟩ ::
        (tokens ++ rest))) =
      .ok (.identifier start name)
        (inside.moveTo (⟨.symbol .assign, mark⟩ :: (tokens ++ rest))) :=
    chain_of_read (name_read start name fewer) (hinside.mono (Nat.zero_le _)) hassign
  have hrun := hvalue fewer inside rest hinside hends
  rw [List.cons_append, List.cons_append, assignment, bind_of_ok _ hname]
  refine (ifAt_of_eq rfl _ _ inside).trans ?_
  exact (bind_of_ok _ (shift_moveTo inside _ _)).trans (bind_of_ok _ hrun)

/-! ## All expressions -/

mutual

/-- Every expression of the grammar is read where there is room for it, by cases on
the rule at the root of its derivation. -/
theorem classRead :
    ∀ {cls : ExprClass} {tokens : List Token} {expr : Expr},
      DerivesExpr cls tokens expr → ClassRead cls tokens expr
  | _, _, _, .integer _ _ => fun _ _ _ _ _ => rfl
  | _, _, _, .float _ _ => fun _ _ _ _ _ => rfl
  | _, _, _, .string _ _ => fun _ _ _ _ _ => rfl
  | _, _, _, .boolean _ true => fun _ _ _ _ _ => rfl
  | _, _, _, .boolean _ false => fun _ _ _ _ _ => rfl
  | _, _, _, .identifier span name => identifier_read span name
  | _, _, _, .emptyCall start opening stop name => emptyCall_read start opening stop name
  | _, _, _, .call start opening stop name hargs =>
      call_read start opening stop name hargs.head (argsRead hargs)
  | _, _, _, .paren start stop hinner => parenthesized_read start stop (classRead hinner)
  | _, _, _, .ofPrimary hprimary => prefixed_read_primary hprimary (classRead hprimary)
  | _, _, _, .unary start op hoperand => prefixed_read_unary start op (classRead hoperand)
  | _, _, _, .ofOperand level hoperand =>
      chainRead_operand level hoperand (classRead hoperand)
  | _, _, _, .binary mark _ hleft hright => fun levels =>
      chainRead_binary mark (classRead hleft levels) (classRead hright)
  | _, _, _, .ofChain hchain => expression_read_chain (classRead hchain)
  | _, _, _, .assign start mark name hvalue =>
      expression_read_assign start mark name (classRead hvalue)

theorem argsRead :
    ∀ {tokens : List Token} {args : List Expr},
      DerivesArgs tokens args → ArgsRead tokens args
  | _, _, .last hexpr => argsRead_last (classRead hexpr)
  | _, _, .more comma hexpr hrest => argsRead_more comma (classRead hexpr) (argsRead hrest)

end

/-- An expression is read wherever the budget suffices for it and nothing that
follows goes on with it. -/
theorem expression_of_derives {tokens rest : List Token} {expr : Expr}
    (hexpr : DerivesExpr .expression tokens expr) {state : ParserState}
    (hbudget : state.depth + (constructCost + expr.nesting) ≤ nestingBudget)
    (hends : EndsExpr (nextKind rest)) :
    expression (state.moveTo (tokens ++ rest)) = .ok expr (state.moveTo rest) := by
  apply classRead hexpr _ state rest ⟨hbudget, _⟩ hends
  exact Nat.le_trans (Nat.le_add_left _ _) hbudget

end Parser

end DeclCheck
