import DeclCheck.Proofs.Grammar.FirstToken
import DeclCheck.Proofs.Parser.Acceptance
import DeclCheck.Proofs.Parser.Soundness

/-!
# Expressions of the grammar are accepted

The parser of each class of expressions accepts every expression of the class,
provided that what follows does not go on with it.  The rules of a level are left
recursive while the parser reads operand after operand, so a chain is followed up
to the point where the loop of the parser stands behind it.
-/

namespace DeclCheck

/-- The position of a level, the loosest first. -/
def Precedence.rank : Precedence → Nat
  | .disjunction => 0
  | .conjunction => 1
  | .equality => 2
  | .comparison => 3
  | .sum => 4
  | .product => 5

namespace Parser

open Grammar

/-- A token of the kind goes on neither with a name nor with an expression whose
operators have at least the given rank. -/
def EndsBelow (rank : Nat) (kind : TokenKind) : Prop :=
  kind ≠ .symbol .openParen ∧
    ∀ op : BinaryOp, kind = .symbol op.symbol → op.precedence.rank < rank

theorem EndsBelow.mono {low high : Nat} {kind : TokenKind}
    (hends : EndsBelow low kind) (hle : low ≤ high) : EndsBelow high kind :=
  ⟨hends.1, fun op hop => Nat.lt_of_lt_of_le (hends.2 op hop) hle⟩

theorem operator?_of_endsBelow {level : Precedence} {kind : TokenKind}
    (hends : EndsBelow level.rank kind) : operator? level kind = none := by
  cases hop : operator? level kind with
  | none => rfl
  | some op =>
      obtain ⟨hkind, rfl⟩ := operator?_eq_some_iff.mp hop
      exact absurd (hends.2 op hkind) (Nat.lt_irrefl _)

theorem endsBelow_symbol (op : BinaryOp) :
    EndsBelow (op.precedence.rank + 1) (.symbol op.symbol) := by
  refine ⟨by cases op <;> simp [BinaryOp.symbol], fun other hother => ?_⟩
  have hsame : op = other := by
    cases op <;> cases other <;> simp_all [BinaryOp.symbol]
  rw [hsame]
  exact Nat.lt_succ_self _

/-- Nothing of the kind goes on with an expression. -/
def EndsExpr (kind : TokenKind) : Prop :=
  EndsBelow 0 kind ∧ kind ≠ .symbol .assign

theorem endsExpr_of_mem {mark : Symbol}
    (hmark : mark = .closeParen ∨ mark = .comma ∨ mark = .semicolon) :
    EndsExpr (.symbol mark) := by
  rcases hmark with rfl | rfl | rfl
  all_goals
    refine ⟨⟨by simp, fun op hop => ?_⟩, by simp⟩
    cases op <;> simp [BinaryOp.symbol] at hop

/-- What stands between the operators of a level, inside of which `levels` more
expressions fit. -/
def operandParser (levels : Nat) (level : Precedence) : Parser Expr :=
  (Precedence.all.drop (level.rank + 1)).foldr chain
    (unary (primary (expressionWithin levels)))

theorem Compositional.operandParser {holds : ∀ {α : Type}, Parser α → Prop}
    (hholds : Compositional holds) (levels : Nat) (level : Precedence) :
    holds (operandParser levels level) := by
  rw [Parser.operandParser]
  generalize Precedence.all.drop (level.rank + 1) = tighter
  induction tighter with
  | nil => exact hholds.unaryWithin (hholds.primary (hholds.expressionWithin levels)) _
  | cons first rest ih => exact hholds.chain first ih

/-- From before the first operand of a chain, the parser gets to where its loop
stands behind the chain, unless it runs out of budget. -/
def ChainReached (levels : Nat) (level : Precedence) (tokens : List Token)
    (expr : Expr) : Prop :=
  ∀ (state : ParserState) (rest : List Token),
    EndsBelow (level.rank + 1) (nextKind rest) →
    let operand := operandParser levels level
    let run := (operand >>= chainAfter level operand (nestingBudget + 1))
      (state.moveTo (tokens ++ rest))
    Overruns state.reports run ∨
      ∃ bound depth, run =
        chainAfter level operand bound expr ((state.atDepth depth).moveTo rest)

/-- What acceptance means for each class.  A chain may be followed by more of
its own operators. -/
def ClassAccepted : ExprClass → List Token → Expr → Prop
  | .expression, tokens, expr =>
      ∀ levels (state : ParserState) rest, EndsExpr (nextKind rest) →
        Accepts (expressionWithin levels) (state.moveTo (tokens ++ rest)) expr rest
  | .level level, tokens, expr => ∀ levels, ChainReached levels level tokens expr
  | .prefixed, tokens, expr =>
      ∀ levels bound (state : ParserState) rest,
        nextKind rest ≠ .symbol .openParen →
        Accepts (unaryWithin (primary (expressionWithin levels)) bound)
          (state.moveTo (tokens ++ rest)) expr rest
  | .primary, tokens, expr =>
      ∀ levels (state : ParserState) rest, nextKind rest ≠ .symbol .openParen →
        Accepts (primary (expressionWithin levels)) (state.moveTo (tokens ++ rest))
          expr rest

/-! ## Chains -/

theorem chain_accepts {levels : Nat} {level : Precedence} {tokens : List Token}
    {expr : Expr} (hreached : ChainReached levels level tokens expr)
    (state : ParserState) {rest : List Token}
    (hends : EndsBelow level.rank (nextKind rest)) :
    Accepts (chain level (operandParser levels level))
      (state.moveTo (tokens ++ rest)) expr rest := by
  rcases hreached state rest (hends.mono (Nat.le_succ _)) with
    hoverruns | ⟨bound, depth, hrun⟩
  · exact .inr (Overruns.keepingDepth hoverruns)
  · cases bound with
    | zero =>
        refine .inr (Overruns.keepingDepth ?_)
        rw [hrun]
        exact .inl ⟨rfl, .expression, rfl⟩
    | succ bound =>
        refine .inl ?_
        rw [chainAfter, bind_of_ok _ (peek_apply _), kind_current_moveTo,
          operator?_of_endsBelow hends] at hrun
        rw [chain, keepingDepth, hrun]
        rfl

/-- Operands are accepted wherever no tighter operator follows. -/
theorem operandParser_accepts {level : Precedence} {tokens : List Token}
    {expr : Expr} (haccepted : ClassAccepted (operands level) tokens expr)
    (levels : Nat) (state : ParserState) {rest : List Token}
    (hends : EndsBelow (level.rank + 1) (nextKind rest)) :
    Accepts (operandParser levels level) (state.moveTo (tokens ++ rest)) expr
      rest := by
  cases level with
  | disjunction => exact chain_accepts (haccepted levels) state hends
  | conjunction => exact chain_accepts (haccepted levels) state hends
  | equality => exact chain_accepts (haccepted levels) state hends
  | comparison => exact chain_accepts (haccepted levels) state hends
  | sum => exact chain_accepts (haccepted levels) state hends
  | product => exact haccepted levels _ state rest hends.1

theorem chainReached_operand (level : Precedence) {tokens : List Token}
    {expr : Expr} (haccepted : ClassAccepted (operands level) tokens expr)
    (levels : Nat) : ChainReached levels level tokens expr := by
  intro state rest hends
  rcases operandParser_accepts haccepted levels state hends with hrun | hoverruns
  · exact .inr ⟨_, state.depth, bind_of_ok _ hrun⟩
  · exact .inl (hoverruns.bind fun first =>
      reportsGrow_recovering.chainAfter level (reportsGrow_recovering.operandParser levels level)
        _ first)

/-- One more operator and operand take the loop of the parser one round
further. -/
theorem chainReached_binary {op : BinaryOp} (mark : Span)
    {leftTokens rightTokens : List Token} {left right : Expr} {levels : Nat}
    (hleft : ChainReached levels op.precedence leftTokens left)
    (hright : ClassAccepted (operands op.precedence) rightTokens right) :
    ChainReached levels op.precedence
      (leftTokens ++ ⟨.symbol op.symbol, mark⟩ :: rightTokens)
      (.binary (left.span.cover right.span) op left right) := by
  intro state rest hends
  rw [List.append_assoc, List.cons_append]
  intro operand run
  rcases hleft state (⟨.symbol op.symbol, mark⟩ :: (rightTokens ++ rest))
    (endsBelow_symbol op) with hoverruns | ⟨bound, depth, hrun⟩
  · exact .inl hoverruns
  cases bound with
  | zero =>
      refine .inl ?_
      rw [show run = _ from hrun]
      exact .inl ⟨rfl, .expression, rfl⟩
  | succ bound =>
      have hop : operator? op.precedence (.symbol op.symbol) = some op :=
        operator?_eq_some_iff.mpr ⟨rfl, rfl⟩
      rw [chainAfter, bind_of_ok _ (peek_apply _), kind_current_moveTo, nextKind,
        hop] at hrun
      simp only [bind_of_ok _ (shift_moveTo _ _ _)] at hrun
      by_cases hdeep : depth + operatorCost > nestingBudget
      · refine .inl ?_
        rw [show run = _ from hrun, bind_of_error _ (spend_of_gt _ hdeep)]
        exact .inl ⟨rfl, .expression, rfl⟩
      · rw [bind_of_ok _ (spend_of_le _ (Nat.le_of_not_gt hdeep))] at hrun
        rcases operandParser_accepts hright levels
          (state.atDepth (depth + operatorCost)) hends with hright | hoverruns
        · exact .inr ⟨bound, depth + operatorCost, hrun.trans (bind_of_ok _ hright)⟩
        · refine .inl ?_
          rw [show run = _ from hrun]
          exact hoverruns.bind fun value => reportsGrow_recovering.chainAfter _
            (reportsGrow_recovering.operandParser levels _) _ _

/-! ## Primaries -/

theorem identifier_accepted (span : Span) (name : String) :
    ClassAccepted .primary [⟨.identifier name, span⟩] (.identifier span name) := by
  intro levels state rest hopen
  have hreference : Accepts (reference (expressionWithin levels) name)
      (state.moveTo (⟨.identifier name, span⟩ :: rest)) (.identifier span name)
      rest := by
    refine .step (shift_moveTo state _ _) ?_
    exact .of_not_at hopen (.of_ok rfl)
  exact hreference

theorem parenthesized_accepted (start stop : Span) {tokens : List Token}
    {inner : Expr} (hinner : ClassAccepted .expression tokens inner) :
    ClassAccepted .primary
      (⟨.symbol .openParen, start⟩ :: (tokens ++ [⟨.symbol .closeParen, stop⟩]))
      (.paren (start.cover stop) inner) := by
  intro levels state rest _
  rw [List.cons_append, List.append_assoc]
  have hparenthesized : Accepts (parenthesized (expressionWithin levels))
      (state.moveTo (⟨.symbol .openParen, start⟩ ::
        (tokens ++ ⟨.symbol .closeParen, stop⟩ :: rest)))
      (.paren (start.cover stop) inner) rest := by
    refine .step (symbol_moveTo state _ _ _) ?_
    refine Accepts.bind (hinner levels state _ (endsExpr_of_mem (.inl rfl))) ?_ ?_
    · exact fun inner => reportsGrow_recovering.bind
        (reportsGrow_recovering.symbol _) fun stop =>
          reportsGrow_recovering.pure _
    · exact .step (symbol_moveTo state _ _ _) (.of_ok rfl)
  exact hparenthesized

theorem ClassAccepted.element {tokens : List Token} {expr : Expr}
    (haccepted : ClassAccepted .expression tokens expr) (levels : Nat) :
    ElementAccepted (expressionWithin levels) tokens expr := by
  intro state others hnext
  apply haccepted levels state others
  rcases hnext with hnext | hnext
  · rw [hnext]
    exact endsExpr_of_mem (.inr (.inl rfl))
  · rw [hnext]
    exact endsExpr_of_mem (.inl rfl)

theorem call_accepted (start opening stop : Span) (name : String)
    {tokens : List Token} {args : List Expr}
    (hhead : ∃ token rest, tokens = token :: rest ∧ startsExpr token.kind = true)
    (hargs : ∀ levels, CommaSeparated (expressionWithin levels) tokens args) :
    ClassAccepted .primary
      (⟨.identifier name, start⟩ :: ⟨.symbol .openParen, opening⟩ ::
        (tokens ++ [⟨.symbol .closeParen, stop⟩]))
      (.call (start.cover stop) name args) := by
  intro levels state rest _
  rw [List.cons_append, List.cons_append, List.append_assoc]
  have hgrows := reportsGrow_recovering.expressionWithin levels
  have hclose : nextKind (tokens ++ ⟨.symbol .closeParen, stop⟩ :: rest) ≠
      .symbol .closeParen := by
    obtain ⟨token, others, rfl, hstarts⟩ := hhead
    intro hkind
    rw [List.cons_append, nextKind] at hkind
    rw [hkind] at hstarts
    exact absurd hstarts (by decide)
  have harguments : Accepts (arguments (expressionWithin levels))
      (state.moveTo (tokens ++ ⟨.symbol .closeParen, stop⟩ :: rest)) (args, stop)
      rest := by
    refine .of_not_at hclose ?_
    refine Accepts.bind
      (separatedByCommas_accepts hgrows (hargs levels) rfl state) ?_ ?_
    · exact fun args => reportsGrow_recovering.bind
        (reportsGrow_recovering.symbol _) fun stop =>
          reportsGrow_recovering.pure _
    · exact .step (symbol_moveTo state _ _ _) (.of_ok rfl)
  have hreference : Accepts (reference (expressionWithin levels) name)
      (state.moveTo (⟨.identifier name, start⟩ :: ⟨.symbol .openParen, opening⟩ ::
        (tokens ++ ⟨.symbol .closeParen, stop⟩ :: rest)))
      (.call (start.cover stop) name args) rest := by
    refine .step (shift_moveTo state _ _) (.of_at rfl ?_)
    refine .step (shift_moveTo state _ _) ?_
    exact harguments.bind (fun closed => reportsGrow_recovering.pure _) (.of_ok rfl)
  exact hreference

theorem emptyCall_accepted (start opening stop : Span) (name : String) :
    ClassAccepted .primary
      [⟨.identifier name, start⟩, ⟨.symbol .openParen, opening⟩,
        ⟨.symbol .closeParen, stop⟩]
      (.call (start.cover stop) name []) := by
  intro levels state rest _
  have hreference : Accepts (reference (expressionWithin levels) name)
      (state.moveTo (⟨.identifier name, start⟩ :: ⟨.symbol .openParen, opening⟩ ::
        ⟨.symbol .closeParen, stop⟩ :: rest))
      (.call (start.cover stop) name []) rest := by
    refine .step (shift_moveTo state _ _) (.of_at rfl ?_)
    refine .step (shift_moveTo state _ _) ?_
    have harguments : Accepts (arguments (expressionWithin levels))
        (state.moveTo (⟨.symbol .closeParen, stop⟩ :: rest)) ([], stop) rest :=
      .of_at rfl (.step (pure_apply _ _) (.step (symbol_moveTo state _ _ _) (.of_ok rfl)))
    exact harguments.bind (fun closed => reportsGrow_recovering.pure _) (.of_ok rfl)
  exact hreference

/-! ## Prefix operators and assignment -/

theorem prefixed_of_primary {tokens : List Token} {expr : Expr}
    (hprimary : DerivesExpr .primary tokens expr)
    (haccepted : ClassAccepted .primary tokens expr) :
    ClassAccepted .prefixed tokens expr := by
  intro levels bound state rest hopen
  cases bound with
  | zero => exact .of_tooDeep rfl
  | succ bound =>
      have hnone : (nextKind (tokens ++ rest)).symbol?.bind UnaryOp.ofSymbol? =
          none := by
        cases hprimary <;> rfl
      rw [Accepts, unaryWithin, bind_of_ok _ (peek_apply _), kind_current_moveTo,
        hnone]
      exact haccepted levels state rest hopen

theorem prefixed_unary (start : Span) (op : UnaryOp) {tokens : List Token}
    {operand : Expr} (hoperand : ClassAccepted .prefixed tokens operand) :
    ClassAccepted .prefixed (⟨.symbol op.symbol, start⟩ :: tokens)
      (.unary (start.cover operand.span) op operand) := by
  intro levels bound state rest hopen
  cases bound with
  | zero => exact .of_tooDeep rfl
  | succ bound =>
      have hop : (TokenKind.symbol op.symbol).symbol?.bind UnaryOp.ofSymbol? =
          some op := by
        cases op <;> rfl
      rw [Accepts, unaryWithin, bind_of_ok _ (peek_apply _), kind_current_moveTo,
        List.cons_append, nextKind, hop]
      refine Accepts.step (shift_moveTo state _ _) ?_
      refine Accepts.bind (Accepts.budgeted .expression ?_)
        (fun operand => reportsGrow_recovering.pure _) (.of_ok rfl)
      exact hoperand levels bound (state.atDepth (state.depth + operatorCost)) rest hopen

/-- A name may stand where a chain of the loosest operators may. -/
theorem name_reached (start : Span) (name : String) :
    ClassAccepted (.level .disjunction) [⟨.identifier name, start⟩]
      (.identifier start name) :=
  have hprefixed := prefixed_of_primary (.identifier start name)
    (identifier_accepted start name)
  have hproduct := chainReached_operand .product hprefixed
  have hsum := chainReached_operand .sum hproduct
  have hcomparison := chainReached_operand .comparison hsum
  have hequality := chainReached_operand .equality hcomparison
  have hconjunction := chainReached_operand .conjunction hequality
  chainReached_operand .disjunction hconjunction

theorem expression_of_chain {tokens : List Token} {expr : Expr}
    (hchain : ClassAccepted (.level .disjunction) tokens expr) :
    ClassAccepted .expression tokens expr := by
  intro levels state rest hends
  cases levels with
  | zero => exact .of_tooDeep rfl
  | succ levels =>
      have hgrows := reportsGrow_recovering.expressionWithin levels
      refine Accepts.budgeted .expression ?_
      refine Accepts.bind (chain_accepts (hchain levels)
        (state.atDepth (state.depth + constructCost)) hends.1)
        (reportsGrow_recovering.assignmentAfter hgrows fun _ =>
          reportsGrow_recoverClosed.refl) ?_
      exact .of_not_at hends.2 (.of_ok rfl)

theorem expression_assign (start mark : Span) (name : String)
    {tokens : List Token} {value : Expr}
    (hvalue : ClassAccepted .expression tokens value) :
    ClassAccepted .expression
      (⟨.identifier name, start⟩ :: ⟨.symbol .assign, mark⟩ :: tokens)
      (.assign (start.cover value.span) name value) := by
  intro levels state rest hends
  cases levels with
  | zero => exact .of_tooDeep rfl
  | succ levels =>
      have hgrows := reportsGrow_recovering.expressionWithin levels
      have hassign : EndsBelow 0
          (nextKind (⟨.symbol .assign, mark⟩ :: (tokens ++ rest))) :=
        ⟨by simp [nextKind],
          fun op hop => by cases op <;> simp [nextKind, BinaryOp.symbol] at hop⟩
      refine Accepts.budgeted .expression ?_
      refine Accepts.bind (chain_accepts (name_reached start name levels)
        (state.atDepth (state.depth + constructCost)) hassign)
        (reportsGrow_recovering.assignmentAfter hgrows fun _ =>
          reportsGrow_recoverClosed.refl) ?_
      refine .of_at rfl (.step (shift_moveTo _ _ _) ?_)
      exact Accepts.bind
        (hvalue levels (state.atDepth (state.depth + constructCost)) rest hends)
        (fun value => reportsGrow_recovering.pure _) (.of_ok rfl)

/-! ## All expressions -/

mutual

/-- Every expression of the grammar is accepted, by cases on the rule at the root
of its derivation. -/
theorem classAccepted :
    ∀ {cls : ExprClass} {tokens : List Token} {expr : Expr},
      DerivesExpr cls tokens expr → ClassAccepted cls tokens expr
  | _, _, _, .integer _ _ => fun _ _ _ _ => .of_ok rfl
  | _, _, _, .float _ _ => fun _ _ _ _ => .of_ok rfl
  | _, _, _, .string _ _ => fun _ _ _ _ => .of_ok rfl
  | _, _, _, .boolean _ true => fun _ _ _ _ => .of_ok rfl
  | _, _, _, .boolean _ false => fun _ _ _ _ => .of_ok rfl
  | _, _, _, .identifier span name => identifier_accepted span name
  | _, _, _, .emptyCall start opening stop name =>
      emptyCall_accepted start opening stop name
  | _, _, _, .call start opening stop name hargs =>
      call_accepted start opening stop name hargs.head (argsAccepted hargs)
  | _, _, _, .paren start stop hinner =>
      parenthesized_accepted start stop (classAccepted hinner)
  | _, _, _, .ofPrimary hprimary =>
      prefixed_of_primary hprimary (classAccepted hprimary)
  | _, _, _, .unary start op hoperand =>
      prefixed_unary start op (classAccepted hoperand)
  | _, _, _, .ofOperand level hoperand =>
      chainReached_operand level (classAccepted hoperand)
  | _, _, _, .binary mark _ hleft hright => fun levels =>
      chainReached_binary mark (classAccepted hleft levels) (classAccepted hright)
  | _, _, _, .ofChain hchain => expression_of_chain (classAccepted hchain)
  | _, _, _, .assign start mark name hvalue =>
      expression_assign start mark name (classAccepted hvalue)

theorem argsAccepted :
    ∀ {tokens : List Token} {args : List Expr},
      DerivesArgs tokens args →
      ∀ levels, CommaSeparated (expressionWithin levels) tokens args
  | _, _, .last hexpr => fun levels => .last ((classAccepted hexpr).element levels)
  | _, _, .more comma hexpr hrest => fun levels =>
      .more comma ((classAccepted hexpr).element levels) (argsAccepted hrest levels)

end

/-- Every expression is accepted wherever nothing that follows goes on with
it. -/
theorem expression_accepts {tokens rest : List Token} {expr : Expr}
    (hexpr : DerivesExpr .expression tokens expr) (state : ParserState)
    (hends : EndsExpr (nextKind rest)) :
    Accepts expression (state.moveTo (tokens ++ rest)) expr rest :=
  classAccepted hexpr _ state rest hends

end Parser

end DeclCheck
