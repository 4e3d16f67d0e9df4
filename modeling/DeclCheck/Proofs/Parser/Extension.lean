import DeclCheck.Proofs.Parser.Progress
import DeclCheck.Proofs.Parser.ProgramSoundness

/-!
# More tokens after those that are read

A parser looks no further than the next token.  As long as some of the given tokens are
left when a run ends, the same run goes on in front of any more tokens.  An item ends
with a token of its own, so items that are read without an error are read again in
front of whatever follows them.
-/

namespace DeclCheck

/-- The state with more tokens after those that are left, and another end of the
source. -/
def ParserState.extend (state : ParserState) (more : List Token) (endSpan : Span) :
    ParserState :=
  { state with tokens := state.tokens ++ more, endSpan := endSpan }

theorem ParserState.current_extend {state : ParserState} (hne : state.tokens ≠ [])
    (more : List Token) (endSpan : Span) :
    (state.extend more endSpan).current = state.current := by
  obtain ⟨token, rest, htokens⟩ := List.exists_cons_of_ne_nil hne
  simp only [extend, current, htokens, List.cons_append]

namespace Parser

variable {α β : Type} (more : List Token) (endSpan : Span)

/-- What a run answers, with more tokens left. -/
def extendResult :
    EStateM.Result SyntaxError ParserState α → EStateM.Result SyntaxError ParserState α
  | .ok value after => .ok value (after.extend more endSpan)
  | .error error after => .error error (after.extend more endSpan)

/-- The run from the state is the same when more tokens follow. -/
def SameBefore (parser : Parser α) (state : ParserState) : Prop :=
  parser (state.extend more endSpan) = extendResult more endSpan (parser state)

/-- A run that leaves some of the tokens is the same when more tokens follow them. -/
structure Local (parser : Parser α) : Prop where
  shrinks : Keeps Shrinks parser
  same : ∀ state, (finalState parser state).tokens ≠ [] →
    SameBefore more endSpan parser state

variable {more endSpan}

theorem Shrinks.ne_nil {before after : ParserState} (hshrinks : Shrinks before after)
    (hafter : after.tokens ≠ []) : before.tokens ≠ [] := by
  intro hnil
  rw [Shrinks, hnil] at hshrinks
  exact hafter (List.suffix_nil.mp hshrinks)

theorem Local.of_ok {parser : Parser α} (hparser : Local more endSpan parser)
    {state after : ParserState} {value : α} (hrun : parser state = .ok value after)
    (hleft : after.tokens ≠ []) :
    parser (state.extend more endSpan) = .ok value (after.extend more endSpan) := by
  have hsame := hparser.same state
  rw [finalState_of_ok hrun, SameBefore, hrun] at hsame
  exact hsame hleft

theorem Local.of_error {parser : Parser α} (hparser : Local more endSpan parser)
    {state after : ParserState} {error : SyntaxError}
    (hrun : parser state = .error error after) (hleft : after.tokens ≠ []) :
    parser (state.extend more endSpan) = .error error (after.extend more endSpan) := by
  have hsame := hparser.same state
  rw [finalState_of_error hrun, SameBefore, hrun] at hsame
  exact hsame hleft

/-! ## Runs that leave a token -/

theorem Local.bind {parser : Parser α} {next : α → Parser β}
    (hparser : Local more endSpan parser) (hnext : ∀ value, Local more endSpan (next value)) :
    Local more endSpan (parser >>= next) where
  shrinks := shrinks_recovering.bind hparser.shrinks fun value => (hnext value).shrinks
  same := by
    intro state hleft
    rw [SameBefore]
    cases hrun : parser state with
    | ok value after =>
        rw [finalState, bind_of_ok next hrun] at hleft
        have hafter : after.tokens ≠ [] := ((hnext value).shrinks after).ne_nil hleft
        rw [bind_of_ok next hrun, bind_of_ok next (hparser.of_ok hrun hafter)]
        exact (hnext value).same after hleft
    | error error after =>
        rw [finalState_of_error (bind_of_error next hrun)] at hleft
        rw [bind_of_error next hrun, bind_of_error next (hparser.of_error hrun hleft)]
        rfl

theorem peek_local : Local more endSpan peek where
  shrinks := shrinks_recovering.peek
  same := by
    intro state hleft
    rw [SameBefore, peek_apply, peek_apply, state.current_extend hleft]
    rfl

theorem shift_local : Local more endSpan shift where
  shrinks := shrinks_recovering.shift
  same := by
    intro state hleft
    have hne : state.tokens ≠ [] := (shrinks_recovering.shift state).ne_nil hleft
    rw [SameBefore, shift, shift, state.current_extend hne]
    simp only [extendResult, ParserState.extend, List.tail_append_of_ne_nil hne]

theorem throw_local (error : SyntaxError) :
    Local more endSpan (throw error : Parser α) where
  shrinks := shrinks_recoverClosed.refl
  same _ _ := rfl

theorem spend_local (cost : Nat) (construct : Construct) :
    Local more endSpan (spend cost construct) where
  shrinks := shrinks_recoverClosed.spend cost construct
  same := by
    intro state hleft
    have hdepth : (state.extend more endSpan).depth = state.depth := rfl
    by_cases hdeep : state.depth + cost > nestingBudget
    · rw [finalState_of_error (spend_of_gt construct hdeep)] at hleft
      rw [SameBefore, spend_of_gt construct hdeep, spend_of_gt construct (hdepth ▸ hdeep),
        state.current_extend hleft]
      rfl
    · have hroom := Nat.le_of_not_gt hdeep
      rw [SameBefore, spend_of_le construct hroom, spend_of_le construct (hdepth ▸ hroom)]
      rfl

theorem Local.keepingDepth {parser : Parser α} (hparser : Local more endSpan parser) :
    Local more endSpan (keepingDepth parser) where
  shrinks := shrinks_recovering.keepingDepth hparser.shrinks
  same := by
    intro state hleft
    rw [finalState, Parser.keepingDepth] at hleft
    rw [SameBefore, Parser.keepingDepth, Parser.keepingDepth]
    cases hrun : parser state with
    | ok value after =>
        rw [hrun] at hleft
        rw [hparser.of_ok hrun hleft]
        rfl
    | error error after =>
        rw [hrun] at hleft
        rw [hparser.of_error hrun hleft]
        rfl

theorem Local.budgeted (cost : Nat) (construct : Construct) {parser : Parser α}
    (hparser : Local more endSpan parser) :
    Local more endSpan (budgeted cost construct parser) where
  shrinks := shrinks_recoverClosed.budgeted cost construct hparser.shrinks
  same := by
    intro state hleft
    have hboth : Local more endSpan (spend cost construct >>= fun _ => parser) :=
      (spend_local cost construct).bind fun _ => hparser
    rw [finalState, budgeted_apply] at hleft
    rw [SameBefore, budgeted_apply, budgeted_apply]
    cases hrun : (spend cost construct >>= fun _ => parser) state with
    | ok value after =>
        rw [hrun] at hleft
        rw [hboth.of_ok hrun hleft]
        rfl
    | error error after =>
        rw [hrun] at hleft
        rw [hboth.of_error hrun hleft]
        rfl

/-- A loop that is bounded by the number of tokens goes the same way as one with a bound
that is large enough for the extended tokens too. -/
theorem Local.of_bounded {parser : Parser α} (within : Nat → Parser α)
    (hshrinks : Keeps Shrinks parser) (hwithin : ∀ bound, Local more endSpan (within bound))
    (hparser : ∀ state bound, state.tokens.length ≤ bound → parser state = within bound state) :
    Local more endSpan parser where
  shrinks := hshrinks
  same := by
    intro state hleft
    have hstate := hparser state (state.extend more endSpan).tokens.length
      (by simp [ParserState.extend])
    rw [finalState, hstate] at hleft
    rw [SameBefore, hstate, hparser (state.extend more endSpan) _ (Nat.le_refl _)]
    exact (hwithin _).same state hleft

theorem Local.commas {element : Parser α} (helement : Local more endSpan element)
    (hmore : ∀ bound, Local more endSpan (moreAfterComma element bound)) :
    Local more endSpan (separatedByCommas element) := by
  have hpure : ∀ values : List α, Local more endSpan (pure values) :=
    fun values => ⟨shrinks_recovering.pure values, fun _ _ => rfl⟩
  apply helement.bind
  intro first
  apply Local.of_bounded fun bound => do
    let rest ← moreAfterComma element bound
    return first :: rest
  · have htokensLeft : Keeps Shrinks tokensLeft := shrinks_recoverClosed.refl
    apply shrinks_recovering.bind htokensLeft
    intro left
    exact shrinks_recovering.bind (hmore left).shrinks fun rest => shrinks_recovering.pure _
  · intro bound
    exact (hmore bound).bind fun rest => hpure _
  · intro state bound hbound
    rw [bind_of_ok _ (tokensLeft_apply state)]
    exact bind_congr_run _ (moreAfterComma_of_le helement.shrinks hbound).symm

theorem local_combining : Combining (Local more endSpan) where
  pure value := ⟨shrinks_recovering.pure value, fun _ _ => rfl⟩
  bind := Local.bind
  peek := peek_local
  shift := shift_local
  reject _ := peek_local.bind fun _ => throw_local _
  tooDeep := peek_local.bind fun _ => throw_local _
  spend cost := spend_local cost .expression
  keepingDepth := Local.keepingDepth
  budgeted cost _ hparser := Local.budgeted cost .expression hparser
  commas := Local.commas

theorem local_compositional : Compositional (Local more endSpan) :=
  local_combining.compositional fun _ => throw_local _

/-! ## Recovery -/

theorem resume_append {tokens : List Token} (hleft : resume tokens ≠ [])
    (more : List Token) : resume (tokens ++ more) = resume tokens ++ more := by
  induction tokens with
  | nil => exact absurd rfl hleft
  | cons token rest ih =>
      rw [List.cons_append, resume]
      rw [resume] at hleft ⊢
      by_cases hsemicolon : token.kind = .symbol .semicolon
      · rw [if_pos hsemicolon, if_pos hsemicolon]
      · rw [if_neg hsemicolon] at hleft
        rw [if_neg hsemicolon, if_neg hsemicolon]
        by_cases hbrace : token.kind = .symbol .closeBrace
        · rw [if_pos hbrace, if_pos hbrace, List.cons_append]
        · rw [if_neg hbrace] at hleft
          rw [if_neg hbrace, if_neg hbrace, ih hleft]

theorem recover_extend {parser : Parser α} (hparser : Local more endSpan parser)
    {state : ParserState} (hleft : (recover parser state).2.tokens ≠ []) :
    recover parser (state.extend more endSpan) =
      ((recover parser state).1, (recover parser state).2.extend more endSpan) := by
  rw [recover] at hleft
  rw [recover, recover]
  cases hrun : parser state with
  | ok value after =>
      rw [hrun] at hleft
      rw [hparser.of_ok hrun hleft]
  | error error after =>
      rw [hrun] at hleft
      have hafter : after.tokens ≠ [] := by
        intro hnil
        simp only [hnil] at hleft
        exact hleft rfl
      rw [hparser.of_error hrun hafter]
      simp only [after.current_extend hafter]
      simp only [ParserState.extend, resume_append hleft]

theorem atBlockEnd_extend {state : ParserState} (hne : state.tokens ≠ []) :
    atBlockEnd (state.extend more endSpan) = atBlockEnd state := by
  rw [atBlockEnd, atBlockEnd, state.current_extend hne]

theorem statementsWithin_extend {statement : Parser Stmt}
    (hstatement : Local more endSpan statement) (bound : Nat) :
    ∀ {state : ParserState}, (statementsWithin statement bound state).2.tokens ≠ [] →
      statementsWithin statement bound (state.extend more endSpan) =
        ((statementsWithin statement bound state).1,
          (statementsWithin statement bound state).2.extend more endSpan) := by
  induction bound with
  | zero => exact fun _ => rfl
  | succ bound ih =>
      intro state hleft
      have hne : state.tokens ≠ [] :=
        (shrinks_recoverClosed.statementsWithin hstatement.shrinks _ state).ne_nil hleft
      rw [statementsWithin] at hleft
      rw [statementsWithin, statementsWithin, atBlockEnd_extend hne]
      cases hend : atBlockEnd state with
      | true => rfl
      | false =>
          simp only [hend, Bool.false_eq_true, if_false] at hleft ⊢
          have hafter : (recover statement state).2.tokens ≠ [] :=
            (shrinks_recoverClosed.statementsWithin hstatement.shrinks bound _).ne_nil hleft
          rw [recover_extend hstatement hafter, ih hleft]

theorem statements_local (levels : Nat)
    (hstatement : Local more endSpan (statement (blockWithin levels))) :
    Local more endSpan (statements (statement (blockWithin levels))) := by
  have hadvances : Advances (statement (blockWithin levels)) :=
    statement_advances (shrinks_recovering.blockWithin levels) (blockWithin_advances levels)
  apply Local.of_bounded fun bound state =>
    let read := statementsWithin (statement (blockWithin levels)) bound state
    .ok read.1 read.2
  · exact shrinks_recoverClosed.statements hstatement.shrinks
  · intro bound
    refine ⟨shrinks_recoverClosed.statementsWithin hstatement.shrinks bound, ?_⟩
    intro state hleft
    simp only [SameBefore, statementsWithin_extend hstatement bound hleft]
    rfl
  · intro state bound hbound
    simp only [statements, statementsWithin_of_le hstatement.shrinks hadvances hbound]

theorem local_recovering : Recovering (Local more endSpan) :=
  local_compositional.recovering (peek_local.bind fun _ => throw_local _)
    (Local.budgeted constructCost .block) statements_local

/-! ## Runs that end with a token of their own -/

/-- A run that succeeds is the same in front of any more tokens, even if it takes all
the tokens. -/
def Closes (more : List Token) (endSpan : Span) (parser : Parser α) : Prop :=
  ∀ ⦃state after : ParserState⦄ ⦃value : α⦄, parser state = .ok value after →
    state.tokens ≠ [] ∧
      parser (state.extend more endSpan) = .ok value (after.extend more endSpan)

/-- What closes a run may stand behind anything. -/
theorem Local.bind_closes {parser : Parser α} {next : α → Parser β}
    (hparser : Local more endSpan parser) (hnext : ∀ value, Closes more endSpan (next value)) :
    Closes more endSpan (parser >>= next) := by
  intro state last result hrun
  obtain ⟨value, after, hfirst, hsecond⟩ := bind_eq_ok_iff.mp hrun
  obtain ⟨hafter, hsame⟩ := hnext value hsecond
  refine ⟨(hparser.shrinks.of_ok hfirst).ne_nil hafter, ?_⟩
  rw [bind_of_ok next (hparser.of_ok hfirst hafter), hsame]

theorem Closes.map {parser : Parser α} (hparser : Closes more endSpan parser) (f : α → β) :
    Closes more endSpan (do return f (← parser)) := by
  intro state last result hrun
  obtain ⟨value, after, hfirst, hpure⟩ := bind_eq_ok_iff.mp hrun
  cases hpure
  obtain ⟨hne, hsame⟩ := hparser hfirst
  exact ⟨hne, bind_of_ok _ hsame⟩

theorem closes_ifAt (mark : Symbol) {there otherwise : Parser α}
    (hthere : Closes more endSpan there) (hotherwise : Closes more endSpan otherwise) :
    Closes more endSpan (do if ← at? mark then there else otherwise) := by
  apply (local_recovering.at? mark).bind_closes
  intro found
  cases found with
  | true => exact hthere
  | false => exact hotherwise

theorem Closes.budgeted {parser : Parser α} (cost : Nat) (construct : Construct)
    (hparser : Closes more endSpan parser) :
    Closes more endSpan (budgeted cost construct parser) := by
  intro state after value hrun
  have hdepth := depth_le_of_budgeted hrun
  have hroom : (state.extend more endSpan).depth + cost ≤ nestingBudget := hdepth
  obtain ⟨reached, hinner, hafter⟩ := budgeted_eq_ok hrun
  obtain ⟨hne, hsame⟩ := hparser hinner
  rw [hafter]
  exact ⟨hne, budgeted_of_ok construct hroom hsame⟩

theorem symbol_closes (mark : Symbol) : Closes more endSpan (symbol mark) := by
  intro state after span hrun
  have hne : state.tokens ≠ [] := by
    rw [(symbol_consumes hrun).tokens_eq]
    exact List.cons_ne_nil _ _
  refine ⟨hne, ?_⟩
  rw [symbol_apply] at hrun
  rw [symbol_apply, state.current_extend hne]
  split at hrun
  · rename_i hmark
    cases hrun
    simp only [hmark, if_true, ParserState.extend, List.tail_append_of_ne_nil hne]
  · cases hrun

theorem braced_closes (levels : Nat) :
    Closes more endSpan (braced (statement (blockWithin levels))) := by
  apply (local_recovering.symbol _).bind_closes
  intro start
  apply (statements_local levels
    (local_recovering.statement (local_recovering.blockWithin levels))).bind_closes
  intro stmts
  exact (symbol_closes _).map _

theorem block_closes : Closes more endSpan block :=
  (braced_closes _).budgeted _ _

theorem variableAfter_closes (type : TypeName) (start : Span) (name : String) :
    Closes more endSpan (variableAfter type start name) := by
  have hstop : ∀ init : Option Expr, Closes more endSpan (do
      let stop ← symbol .semicolon
      return { type := type.spelling, name := name, init := init,
               span := start.cover stop : VariableDecl }) :=
    fun init => (symbol_closes _).map _
  apply closes_ifAt .assign
  · apply local_recovering.shift.bind_closes
    intro mark
    exact (local_recovering.map _ local_recovering.expression).bind_closes hstop
  · exact (local_recovering.pure none).bind_closes hstop

theorem functionAfter_closes (type : TypeName) (start : Span) (name : String) :
    Closes more endSpan (functionAfter type start name) := by
  have hbody : ∀ params : Option (List Parameter), Closes more endSpan (do
      let _ ← symbol .closeParen
      let body ← block
      return { returnType := type.spelling, name := name, params := params,
               body := some body, span := start.cover body.span : FunctionDecl }) :=
    fun params => (local_recovering.symbol _).bind_closes fun closing => block_closes.map _
  apply (local_recovering.symbol _).bind_closes
  intro opening
  apply closes_ifAt .closeParen
  · exact (local_recovering.pure none).bind_closes hbody
  · exact (local_recovering.map _
      (local_recovering.separatedByCommas local_recovering.parameter)).bind_closes hbody

theorem item_closes : Closes more endSpan item := by
  apply local_recovering.peek.bind_closes
  intro token
  split
  · apply local_recovering.typeName.bind_closes
    intro type
    apply local_recovering.identifier.bind_closes
    intro name
    apply closes_ifAt .openParen
    · exact (functionAfter_closes _ _ _).map _
    · exact (variableAfter_closes _ _ _).map _
  · have hevaluation : Closes more endSpan evaluation := by
      apply local_recovering.expression.bind_closes
      intro expr
      exact (symbol_closes _).map _
    exact hevaluation.map _

/-! ## Items -/

/-- A round that files nothing is the same in front of any more tokens. -/
theorem itemStep_extend {state : ParserState}
    (hclean : (itemStep state).2.reports = state.reports) :
    state.tokens ≠ [] ∧ itemStep (state.extend more endSpan) =
      ((itemStep state).1, (itemStep state).2.extend more endSpan) := by
  obtain ⟨read, after, hrun⟩ := item_of_itemStep_clean hclean
  obtain ⟨hne, hsame⟩ := item_closes hrun
  rw [itemStep_of_ok hrun, itemStep_of_ok hsame]
  exact ⟨hne, rfl⟩

/-- One round, and the items after it. -/
theorem itemsWithin_round {bound : Nat} {state : ParserState}
    (heof : state.current.kind ≠ .eof) (hbound : state.tokens.length ≤ bound) :
    itemsWithin bound state =
      ((itemStep state).1.toList ++
          (itemsWithin (itemStep state).2.tokens.length (itemStep state).2).1,
        (itemsWithin (itemStep state).2.tokens.length (itemStep state).2).2) := by
  have hlength := itemStep_advances heof
  cases bound with
  | zero => omega
  | succ bound =>
      have hrest : (itemStep state).2.tokens.length ≤ bound := by omega
      rw [itemsWithin, if_neg heof, ← itemsWithin_of_le hrest]

/-- Items that are read without an error until no token is left are read again in front
of any more tokens, and then reading goes on with those. -/
theorem itemsWithin_extend (bound : Nat) :
    ∀ {state : ParserState}, (itemsWithin bound state).2.reports = state.reports →
      (itemsWithin bound state).2.tokens = [] →
      itemsWithin (state.extend more endSpan).tokens.length (state.extend more endSpan) =
        ((itemsWithin bound state).1 ++
            (itemsWithin more.length ((itemsWithin bound state).2.extend more endSpan)).1,
          (itemsWithin more.length ((itemsWithin bound state).2.extend more endSpan)).2) := by
  have hdone : ∀ {state : ParserState}, state.tokens = [] →
      itemsWithin (state.extend more endSpan).tokens.length (state.extend more endSpan) =
        itemsWithin more.length (state.extend more endSpan) := by
    intro state hnone
    rw [ParserState.extend, hnone, List.nil_append]
  induction bound with
  | zero =>
      intro state _ hnone
      exact hdone hnone
  | succ bound ih =>
      intro state hclean hnone
      rw [itemsWithin] at hclean hnone ⊢
      by_cases heof : state.current.kind = .eof
      · rw [if_pos heof] at hnone ⊢
        exact hdone hnone
      · simp only [heof, if_false] at hclean hnone ⊢
        have hparts := ReportsGrow.eq_of_eq (reportsGrow_recoverClosed.itemStep state)
          (reportsGrow_recoverClosed.itemsWithin bound _) hclean
        obtain ⟨hne, hstep⟩ : _ ∧ itemStep (state.extend more endSpan) = _ :=
          itemStep_extend hparts.1
        have hmore : (state.extend more endSpan).current.kind ≠ .eof := by
          rwa [state.current_extend hne]
        rw [itemsWithin_round hmore (Nat.le_refl _), hstep, ih hparts.2 hnone,
          List.append_assoc]

end Parser

end DeclCheck
