import DeclCheck.Proofs.Grammar
import DeclCheck.Proofs.Parser.Keeps

/-!
# What a successful run has read

A parser that succeeds has consumed tokens of the grammar, answers their tree and
changes nothing else about the state.  For expressions this holds whatever
happened before; a block may hold statements that could not be read, so what
holds statements is a phrase of the grammar only if no error was filed.
-/

namespace DeclCheck.Parser

open Grammar

variable {α : Type}

/-- The tokens are what lies between the two states, which differ in nothing else
but, possibly, the depth. -/
structure Passes (tokens : List Token) (state after : ParserState) : Prop where
  tokens_eq : state.tokens = tokens ++ after.tokens
  endSpan_eq : after.endSpan = state.endSpan
  reports_eq : after.reports = state.reports

/-- The tokens are what lies between the two states, which differ in nothing
else. -/
structure Consumes (tokens : List Token) (state after : ParserState) : Prop
    extends Passes tokens state after where
  depth_eq : after.depth = state.depth

theorem Passes.trans {first second : List Token}
    {state middle after : ParserState} (hfirst : Passes first state middle)
    (hsecond : Passes second middle after) :
    Passes (first ++ second) state after where
  tokens_eq := by rw [hfirst.tokens_eq, hsecond.tokens_eq, List.append_assoc]
  endSpan_eq := hsecond.endSpan_eq.trans hfirst.endSpan_eq
  reports_eq := hsecond.reports_eq.trans hfirst.reports_eq

theorem Consumes.refl (state : ParserState) : Consumes [] state state :=
  ⟨⟨rfl, rfl, rfl⟩, rfl⟩

theorem Consumes.trans {first second : List Token}
    {state middle after : ParserState} (hfirst : Consumes first state middle)
    (hsecond : Consumes second middle after) :
    Consumes (first ++ second) state after :=
  ⟨hfirst.toPasses.trans hsecond.toPasses, hsecond.depth_eq.trans hfirst.depth_eq⟩

theorem Consumes.after_eq {tokens : List Token} {state after : ParserState}
    (hconsumes : Consumes tokens state after) :
    after = { state with tokens := after.tokens } := by
  obtain ⟨⟨_, hendSpan, hreports⟩, hdepth⟩ := hconsumes
  rw [← hendSpan, ← hreports, ← hdepth]

/-- Taking a token that is not the end of the source consumes it. -/
theorem consumes_tail {state : ParserState} {kind : TokenKind}
    (hkind : state.current.kind = kind) (heof : kind ≠ .eof) :
    Consumes [⟨kind, state.current.span⟩] state
      { state with tokens := state.tokens.tail } := by
  refine ⟨⟨?_, rfl, rfl⟩, rfl⟩
  subst hkind
  cases htokens : state.tokens with
  | nil => simp [ParserState.current, htokens] at heof
  | cons token rest => simp [ParserState.current, htokens]

/-- A parser reads phrases: if it succeeds, it has consumed the tokens of the
phrase that it answers, and has changed nothing else. -/
def Reads (parser : Parser α) (derives : List Token → α → Prop) : Prop :=
  ∀ ⦃state after : ParserState⦄ ⦃value : α⦄, parser state = .ok value after →
    ∃ tokens, Consumes tokens state after ∧ derives tokens value

theorem shift_consumes {state after : ParserState} {token : Token}
    {kind : TokenKind} (hkind : state.current.kind = kind) (heof : kind ≠ .eof)
    (hrun : shift state = .ok token after) :
    Consumes [⟨kind, token.span⟩] state after := by
  cases hrun
  exact consumes_tail hkind heof

theorem symbol_consumes {mark : Symbol} {state after : ParserState} {span : Span}
    (hrun : symbol mark state = .ok span after) :
    Consumes [⟨.symbol mark, span⟩] state after := by
  rw [symbol_apply] at hrun
  split at hrun
  · rename_i hmark
    cases hrun
    exact consumes_tail hmark (by simp)
  · cases hrun

theorem identifier_consumes {state after : ParserState} {named : String × Span}
    (hrun : identifier state = .ok named after) :
    Consumes [⟨.identifier named.1, named.2⟩] state after := by
  rw [identifier_apply] at hrun
  split at hrun
  · rename_i name hname
    cases hrun
    exact consumes_tail hname (by simp)
  · cases hrun

theorem typeName_consumes {state after : ParserState} {named : TypeName × Span}
    (hrun : typeName state = .ok named after) :
    Consumes [⟨.type named.1, named.2⟩] state after := by
  rw [typeName_apply] at hrun
  split at hrun
  · rename_i name hname
    cases hrun
    exact consumes_tail hname (by simp)
  · cases hrun

theorem spend_passes {cost : Nat} {construct : Construct}
    {state after : ParserState} {done : Unit}
    (hrun : spend cost construct state = .ok done after) :
    Passes [] state after := by
  obtain ⟨-, rfl⟩ := spend_eq_ok hrun
  exact ⟨rfl, rfl, rfl⟩

theorem budgeted_eq_ok {cost : Nat} {construct : Construct} {parser : Parser α}
    {state after : ParserState} {value : α}
    (hrun : budgeted cost construct parser state = .ok value after) :
    ∃ reached, parser { state with depth := state.depth + cost } =
        .ok value reached ∧ after = { reached with depth := state.depth } := by
  rw [budgeted_apply] at hrun
  by_cases hdeep : state.depth + cost > nestingBudget
  · rw [bind_of_error _ (spend_of_gt construct hdeep)] at hrun
    cases hrun
  · rw [bind_of_ok _ (spend_of_le construct (Nat.le_of_not_gt hdeep))] at hrun
    split at hrun
    · rename_i reached hinner
      cases hrun
      exact ⟨reached, hinner, rfl⟩
    · cases hrun

theorem depth_le_of_budgeted {cost : Nat} {construct : Construct} {parser : Parser α}
    {state after : ParserState} {value : α}
    (hrun : budgeted cost construct parser state = .ok value after) :
    state.depth + cost ≤ nestingBudget := by
  apply Nat.le_of_not_gt
  intro hdeep
  rw [budgeted_of_gt construct parser hdeep] at hrun
  cases hrun

/-! ## Lists -/

theorem moreAfterComma_consumes {element : Parser α}
    {derives : List Token → α → Prop} {derivesList : List Token → List α → Prop}
    (helement : Reads element derives)
    (hlast : ∀ {tokens value}, derives tokens value → derivesList tokens [value])
    (hmore : ∀ comma {tokens rest value values}, derives tokens value →
      derivesList rest values →
      derivesList (tokens ++ ⟨.symbol .comma, comma⟩ :: rest) (value :: values))
    (bound : Nat) :
    ∀ {state after : ParserState} {values : List α},
      moreAfterComma element bound state = .ok values after →
      ∃ tokens, Consumes tokens state after ∧
        ∀ firstTokens first, derives firstTokens first →
          derivesList (firstTokens ++ tokens) (first :: values) := by
  induction bound with
  | zero =>
      intro state after values hrun
      cases hrun
      refine ⟨[], Consumes.refl state, fun firstTokens first hfirst => ?_⟩
      rw [List.append_nil]
      exact hlast hfirst
  | succ bound ih =>
      intro state after values hrun
      rw [moreAfterComma, bind_of_ok _ (at?_apply _ state)] at hrun
      by_cases hcomma : state.current.kind = .symbol .comma
      · simp only [hcomma, decide_true, if_true, bind_eq_ok_iff] at hrun
        obtain ⟨comma, afterComma, hshift, next, afterNext, hnext, others, last,
          hothers, hpure⟩ := hrun
        cases hpure
        have hcommaConsumed := shift_consumes hcomma (by simp) hshift
        obtain ⟨nextTokens, hnextConsumed, hnextDerives⟩ := helement hnext
        obtain ⟨tokens, hothersConsumed, hothersDerive⟩ := ih hothers
        refine ⟨_, hcommaConsumed.trans (hnextConsumed.trans hothersConsumed), ?_⟩
        intro firstTokens first hfirst
        exact hmore comma.span hfirst (hothersDerive nextTokens next hnextDerives)
      · simp only [hcomma, decide_false] at hrun
        cases hrun
        refine ⟨[], Consumes.refl state, fun firstTokens first hfirst => ?_⟩
        rw [List.append_nil]
        exact hlast hfirst

theorem separatedByCommas_reads {element : Parser α}
    {derives : List Token → α → Prop} {derivesList : List Token → List α → Prop}
    (helement : Reads element derives)
    (hlast : ∀ {tokens value}, derives tokens value → derivesList tokens [value])
    (hmore : ∀ comma {tokens rest value values}, derives tokens value →
      derivesList rest values →
      derivesList (tokens ++ ⟨.symbol .comma, comma⟩ :: rest) (value :: values)) :
    Reads (separatedByCommas element) derivesList := by
  intro state after values hrun
  simp only [separatedByCommas, bind_eq_ok_iff] at hrun
  obtain ⟨first, afterFirst, hfirst, left, _, hleft, others, last, hothers, hpure⟩ :=
    hrun
  cases hleft
  cases hpure
  obtain ⟨firstTokens, hfirstConsumed, hfirstDerives⟩ := helement hfirst
  obtain ⟨tokens, hothersConsumed, hothersDerive⟩ :=
    moreAfterComma_consumes helement hlast hmore _ hothers
  exact ⟨_, hfirstConsumed.trans hothersConsumed,
    hothersDerive firstTokens first hfirstDerives⟩

/-! ## Expressions -/

theorem budgeted_reads {cost : Nat} {construct : Construct} {parser : Parser α}
    {derives : List Token → α → Prop} (hparser : Reads parser derives) :
    Reads (budgeted cost construct parser) derives := by
  intro state after value hrun
  obtain ⟨reached, hinner, rfl⟩ := budgeted_eq_ok hrun
  obtain ⟨tokens, hconsumed, hderives⟩ := hparser hinner
  exact ⟨tokens, ⟨⟨hconsumed.tokens_eq, hconsumed.endSpan_eq,
    hconsumed.reports_eq⟩, rfl⟩, hderives⟩

theorem binaryOp_ofSymbol?_eq_some_iff {mark : Symbol} {op : BinaryOp} :
    BinaryOp.ofSymbol? mark = some op ↔ mark = op.symbol := by
  cases mark <;> cases op <;> decide

theorem unaryOp_ofSymbol?_eq_some_iff {mark : Symbol} {op : UnaryOp} :
    UnaryOp.ofSymbol? mark = some op ↔ mark = op.symbol := by
  cases mark <;> cases op <;> decide

theorem symbol?_bind_eq_some_iff {ofSymbol? : Symbol → Option α}
    {toSymbol : α → Symbol} {op : α}
    (hsymbol : ∀ {mark op}, ofSymbol? mark = some op ↔ mark = toSymbol op)
    {kind : TokenKind} :
    kind.symbol?.bind ofSymbol? = some op ↔ kind = .symbol (toSymbol op) := by
  cases kind with
  | symbol mark => simp [TokenKind.symbol?, hsymbol]
  | _ => simp [TokenKind.symbol?]

theorem operator?_eq_some_iff {level : Precedence} {kind : TokenKind}
    {op : BinaryOp} :
    operator? level kind = some op ↔
      kind = .symbol op.symbol ∧ op.precedence = level := by
  rw [operator?, Option.filter_eq_some_iff, decide_eq_true_eq,
    symbol?_bind_eq_some_iff binaryOp_ofSymbol?_eq_some_iff]

/-- What a chain reads after its left part extends whatever the left part was
read from. -/
theorem chainAfter_passes {level : Precedence} {operand : Parser Expr}
    (hoperand : Reads operand (DerivesExpr (operands level))) (bound : Nat) :
    ∀ {left : Expr} {state after : ParserState} {value : Expr},
      chainAfter level operand bound left state = .ok value after →
      ∃ tokens, Passes tokens state after ∧
        ∀ leftTokens, DerivesExpr (.level level) leftTokens left →
          DerivesExpr (.level level) (leftTokens ++ tokens) value := by
  induction bound with
  | zero =>
      intro left state after value hrun
      cases hrun
  | succ bound ih =>
      intro left state after value hrun
      rw [chainAfter, bind_of_ok _ (peek_apply state)] at hrun
      cases hop : operator? level state.current.kind with
      | none =>
          simp only [hop] at hrun
          cases hrun
          refine ⟨[], (Consumes.refl state).toPasses, fun leftTokens hleft => ?_⟩
          rwa [List.append_nil]
      | some op =>
          obtain ⟨hkind, rfl⟩ := operator?_eq_some_iff.mp hop
          simp only [hop, bind_eq_ok_iff] at hrun
          obtain ⟨mark, afterMark, hshift, _, afterSpend, hspend, right, afterRight,
            hright, hmore⟩ := hrun
          have hmark := (shift_consumes hkind (by simp) hshift).toPasses
          obtain ⟨rightTokens, hrightConsumed, hrightDerives⟩ := hoperand hright
          obtain ⟨tokens, hpassed, hextends⟩ := ih hmore
          refine ⟨_, hmark.trans ((spend_passes hspend).trans
            (hrightConsumed.toPasses.trans hpassed)), fun leftTokens hleft => ?_⟩
          have hboth := hextends _ (.binary mark.span op hleft hrightDerives)
          simpa using hboth

theorem chain_reads (level : Precedence) {operand : Parser Expr}
    (hoperand : Reads operand (DerivesExpr (operands level))) :
    Reads (chain level operand) (DerivesExpr (.level level)) := by
  intro state after value hrun
  rw [chain, keepingDepth] at hrun
  split at hrun
  · rename_i last hinner
    cases hrun
    obtain ⟨first, afterFirst, hfirst, hmore⟩ := bind_eq_ok_iff.mp hinner
    obtain ⟨firstTokens, hfirstConsumed, hfirstDerives⟩ := hoperand hfirst
    obtain ⟨tokens, hpassed, hextends⟩ := chainAfter_passes hoperand _ hmore
    have hall := hfirstConsumed.toPasses.trans hpassed
    exact ⟨_, ⟨⟨hall.tokens_eq, hall.endSpan_eq, hall.reports_eq⟩, rfl⟩,
      hextends firstTokens (.ofOperand level hfirstDerives)⟩
  · cases hrun

theorem binary_reads {operand : Parser Expr}
    (hoperand : Reads operand (DerivesExpr .prefixed)) :
    Reads (binary operand) (DerivesExpr (.level .disjunction)) :=
  chain_reads .disjunction <| chain_reads .conjunction <|
    chain_reads .equality <| chain_reads .comparison <|
      chain_reads .sum <| chain_reads .product hoperand

theorem unaryWithin_reads {primary : Parser Expr}
    (hprimary : Reads primary (DerivesExpr .primary)) (bound : Nat) :
    Reads (unaryWithin primary bound) (DerivesExpr .prefixed) := by
  induction bound with
  | zero =>
      intro state after value hrun
      cases hrun
  | succ bound ih =>
      intro state after value hrun
      rw [unaryWithin, bind_of_ok _ (peek_apply state)] at hrun
      cases hop : state.current.kind.symbol?.bind UnaryOp.ofSymbol? with
      | none =>
          simp only [hop] at hrun
          obtain ⟨tokens, hconsumed, hderives⟩ := hprimary hrun
          exact ⟨tokens, hconsumed, .ofPrimary hderives⟩
      | some op =>
          have hkind := (symbol?_bind_eq_some_iff unaryOp_ofSymbol?_eq_some_iff).mp hop
          simp only [hop, bind_eq_ok_iff] at hrun
          obtain ⟨start, afterStart, hshift, operand, afterOperand, hoperand, hpure⟩ :=
            hrun
          cases hpure
          have hstart := shift_consumes hkind (by simp) hshift
          obtain ⟨tokens, hconsumed, hderives⟩ := budgeted_reads ih hoperand
          exact ⟨_, hstart.trans hconsumed, .unary start.span op hderives⟩

/-- The arguments are what makes the name and the parenthesis before them a
call. -/
theorem arguments_consumes {expression : Parser Expr}
    (hexpression : Reads expression (DerivesExpr .expression))
    {state after : ParserState} {closed : List Expr × Span}
    (hrun : arguments expression state = .ok closed after) :
    ∃ tokens, Consumes tokens state after ∧
      ∀ start opening name, DerivesExpr .primary
        (⟨.identifier name, start⟩ :: ⟨.symbol .openParen, opening⟩ :: tokens)
        (.call (start.cover closed.2) name closed.1) := by
  rw [arguments, bind_of_ok _ (at?_apply _ state)] at hrun
  by_cases hclose : state.current.kind = .symbol .closeParen
  · simp only [hclose, decide_true, if_true, bind_eq_ok_iff] at hrun
    obtain ⟨_, _, hnone, stop, _, hstop, hpure⟩ := hrun
    cases hnone
    cases hpure
    exact ⟨_, symbol_consumes hstop, fun start opening name =>
      .emptyCall start opening stop name⟩
  · simp only [hclose, decide_false, Bool.false_eq_true, if_false,
      bind_eq_ok_iff] at hrun
    obtain ⟨args, afterArgs, hargs, stop, _, hstop, hpure⟩ := hrun
    cases hpure
    obtain ⟨tokens, hconsumed, hderives⟩ :=
      separatedByCommas_reads hexpression DerivesArgs.last DerivesArgs.more hargs
    exact ⟨_, hconsumed.trans (symbol_consumes hstop), fun start opening name =>
      .call start opening stop name hderives⟩

theorem reference_consumes {expression : Parser Expr}
    (hexpression : Reads expression (DerivesExpr .expression))
    {state after : ParserState} {name : String} {value : Expr}
    (hname : state.current.kind = .identifier name)
    (hrun : reference expression name state = .ok value after) :
    ∃ tokens, Consumes tokens state after ∧ DerivesExpr .primary tokens value := by
  simp only [reference, bind_eq_ok_iff] at hrun
  obtain ⟨start, afterName, hshift, found, _, hfound, hrun⟩ := hrun
  have hstart := shift_consumes hname (by simp) hshift
  cases hfound
  by_cases hopen : afterName.current.kind = .symbol .openParen
  · simp only [hopen, decide_true, if_true, bind_eq_ok_iff] at hrun
    obtain ⟨opening, afterOpening, hopening, closed, _, hclosed, hpure⟩ := hrun
    cases hpure
    have hopeningConsumed := shift_consumes hopen (by simp) hopening
    obtain ⟨tokens, hconsumed, hderives⟩ := arguments_consumes hexpression hclosed
    exact ⟨_, hstart.trans (hopeningConsumed.trans hconsumed),
      hderives start.span opening.span name⟩
  · simp only [hopen, decide_false] at hrun
    cases hrun
    exact ⟨_, hstart, .identifier start.span name⟩

theorem parenthesized_reads {expression : Parser Expr}
    (hexpression : Reads expression (DerivesExpr .expression)) :
    Reads (parenthesized expression) (DerivesExpr .primary) := by
  intro state after value hrun
  simp only [parenthesized, bind_eq_ok_iff] at hrun
  obtain ⟨start, _, hstart, inner, _, hinner, stop, _, hstop, hpure⟩ := hrun
  cases hpure
  obtain ⟨tokens, hconsumed, hderives⟩ := hexpression hinner
  exact ⟨_, (symbol_consumes hstart).trans
    (hconsumed.trans (symbol_consumes hstop)), .paren start stop hderives⟩

theorem primary_reads {expression : Parser Expr}
    (hexpression : Reads expression (DerivesExpr .expression)) :
    Reads (primary expression) (DerivesExpr .primary) := by
  intro state after value hrun
  rw [primary, bind_of_ok _ (peek_apply state)] at hrun
  cases hkind : state.current.kind with
  | integer text =>
      simp only [hkind] at hrun
      cases hrun
      exact ⟨_, consumes_tail hkind (by simp), .integer _ text⟩
  | float text =>
      simp only [hkind] at hrun
      cases hrun
      exact ⟨_, consumes_tail hkind (by simp), .float _ text⟩
  | string text =>
      simp only [hkind] at hrun
      cases hrun
      exact ⟨_, consumes_tail hkind (by simp), .string _ text⟩
  | keyword word =>
      cases word with
      | trueWord =>
          simp only [hkind] at hrun
          cases hrun
          exact ⟨_, consumes_tail hkind (by simp), .boolean _ true⟩
      | falseWord =>
          simp only [hkind] at hrun
          cases hrun
          exact ⟨_, consumes_tail hkind (by simp), .boolean _ false⟩
      | _ =>
          simp only [hkind] at hrun
          cases hrun
  | identifier name =>
      simp only [hkind] at hrun
      exact reference_consumes hexpression hkind hrun
  | symbol mark =>
      cases mark with
      | openParen =>
          simp only [hkind] at hrun
          exact parenthesized_reads hexpression hrun
      | _ =>
          simp only [hkind] at hrun
          cases hrun
  | type name =>
      simp only [hkind] at hrun
      cases hrun
  | eof =>
      simp only [hkind] at hrun
      cases hrun

/-- An expression that is nothing but a name was read from a single token. -/
theorem tokens_of_derives_identifier :
    ∀ {cls : ExprClass} {tokens : List Token} {expr : Expr},
      DerivesExpr cls tokens expr →
      ∀ {span name}, expr = .identifier span name →
        tokens = [⟨.identifier name, span⟩]
  | _, _, _, .identifier span name, _, _, rfl => rfl
  | _, _, _, .ofPrimary hprimary, _, _, heq =>
      tokens_of_derives_identifier hprimary heq
  | _, _, _, .ofOperand _ hoperand, _, _, heq =>
      tokens_of_derives_identifier hoperand heq
  | _, _, _, .ofChain hchain, _, _, heq =>
      tokens_of_derives_identifier hchain heq

theorem assignment_reads {expression : Parser Expr}
    (hexpression : Reads expression (DerivesExpr .expression)) :
    Reads (assignment expression) (DerivesExpr .expression) := by
  intro state after value hrun
  simp only [assignment, bind_eq_ok_iff] at hrun
  obtain ⟨left, afterLeft, hleft, found, _, hfound, hrun⟩ := hrun
  cases hfound
  obtain ⟨leftTokens, hleftConsumed, hleftDerives⟩ :=
    binary_reads (unaryWithin_reads (primary_reads hexpression) _) hleft
  by_cases hassign : afterLeft.current.kind = .symbol .assign
  · simp only [hassign, decide_true, if_true] at hrun
    cases left with
    | identifier start name =>
        obtain rfl := tokens_of_derives_identifier hleftDerives rfl
        simp only [bind_eq_ok_iff] at hrun
        obtain ⟨mark, afterMark, hshift, value, _, hvalue, hpure⟩ := hrun
        cases hpure
        have hmark := shift_consumes hassign (by simp) hshift
        obtain ⟨tokens, hconsumed, hderives⟩ := hexpression hvalue
        exact ⟨_, hleftConsumed.trans (hmark.trans hconsumed),
          .assign start mark.span name hderives⟩
    | _ => cases hrun
  · simp only [hassign, decide_false] at hrun
    cases hrun
    exact ⟨leftTokens, hleftConsumed, .ofChain hleftDerives⟩

theorem expressionWithin_reads (levels : Nat) :
    Reads (expressionWithin levels) (DerivesExpr .expression) := by
  induction levels with
  | zero =>
      intro state after value hrun
      cases hrun
  | succ levels ih => exact budgeted_reads (assignment_reads ih)

theorem expression_reads : Reads expression (DerivesExpr .expression) :=
  expressionWithin_reads _

end DeclCheck.Parser
