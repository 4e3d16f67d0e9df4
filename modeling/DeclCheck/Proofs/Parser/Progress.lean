import DeclCheck.Proofs.Parser.Soundness

/-!
# Every round makes progress

No run puts a token back, and a statement or an item that is read takes at least one.
So does a round that fails and recovers.  The rounds of a loop that is allowed as many
as there are tokens therefore never run out, and allowing more changes nothing.
-/

namespace DeclCheck.Parser

variable {α β : Type}

/-- What is left later is an end of what was left before. -/
def Shrinks (before after : ParserState) : Prop :=
  after.tokens <:+ before.tokens

theorem shrinks_recoverClosed : RecoverClosed Shrinks where
  refl _ := List.suffix_refl _
  trans hfirst hsecond := List.IsSuffix.trans hsecond hfirst
  shift _ := List.tail_suffix _
  deeper _ _ _ := List.suffix_refl _
  back hafter := hafter
  file _ _ _ := List.suffix_refl _

theorem shrinks_recovering : Recovering (Keeps Shrinks) :=
  shrinks_recoverClosed.recovering

/-- Whenever the parser succeeds, it takes at least one token. -/
def Advances (parser : Parser α) : Prop :=
  ∀ ⦃state after : ParserState⦄ ⦃value : α⦄, parser state = .ok value after →
    after.tokens.length < state.tokens.length

theorem Consumes.length_lt {token : Token} {tokens : List Token}
    {state after : ParserState} (hconsumes : Consumes (token :: tokens) state after) :
    after.tokens.length < state.tokens.length := by
  rw [hconsumes.tokens_eq, List.length_append, List.length_cons]
  omega

theorem Advances.bind {parser : Parser α} {next : α → Parser β}
    (hparser : Advances parser) (hnext : ∀ value, Keeps Shrinks (next value)) :
    Advances (parser >>= next) := by
  intro state last result hrun
  obtain ⟨value, after, hfirst, hsecond⟩ := bind_eq_ok_iff.mp hrun
  have hshrinks := ((hnext value).of_ok hsecond).length_le
  have hadvances := hparser hfirst
  omega

theorem advances_bind {parser : Parser α} {next : α → Parser β}
    (hparser : Keeps Shrinks parser) (hnext : ∀ value, Advances (next value)) :
    Advances (parser >>= next) := by
  intro state last result hrun
  obtain ⟨value, after, hfirst, hsecond⟩ := bind_eq_ok_iff.mp hrun
  have hshrinks := (hparser.of_ok hfirst).length_le
  have hadvances := hnext value hsecond
  omega

theorem Advances.budgeted {parser : Parser α} (cost : Nat) (construct : Construct)
    (hparser : Advances parser) : Advances (budgeted cost construct parser) := by
  intro state after value hrun
  obtain ⟨reached, hinner, hafter⟩ := budgeted_eq_ok hrun
  have hadvances := hparser hinner
  rwa [hafter]

theorem symbol_advances (mark : Symbol) : Advances (symbol mark) :=
  fun _ _ _ hrun => (symbol_consumes hrun).length_lt

theorem typeName_advances : Advances typeName :=
  fun _ _ _ hrun => (typeName_consumes hrun).length_lt

/-- A choice by the next symbol takes a token if both branches do. -/
theorem advances_ifAt (mark : Symbol) {there otherwise : Parser α}
    (hthere : Advances there) (hotherwise : Advances otherwise) :
    Advances (do if ← at? mark then there else otherwise) := by
  apply advances_bind (shrinks_recovering.at? mark)
  intro found
  cases found with
  | true => exact hthere
  | false => exact hotherwise

/-! ## Statements and items -/

theorem variableDecl_advances : Advances variableDecl := by
  apply typeName_advances.bind
  intro type
  apply shrinks_recovering.bind shrinks_recovering.identifier
  intro name
  exact shrinks_recovering.variableAfter _ _ _

theorem condition_advances : Advances condition := by
  apply (symbol_advances _).bind
  intro opening
  apply shrinks_recovering.bind shrinks_recovering.expression
  intro expr
  apply shrinks_recovering.bind (shrinks_recovering.symbol _)
  intro closing
  exact shrinks_recovering.pure expr

theorem evaluation_advances : Advances evaluation := by
  apply advances_bind shrinks_recovering.expression
  intro expr
  exact (symbol_advances _).bind fun stop => shrinks_recovering.pure _

theorem leave_advances : Advances leave := by
  apply advances_bind shrinks_recovering.shift
  intro start
  have hstop : ∀ value : Option Expr, Advances (do
      let stop ← symbol .semicolon
      return Stmt.leave (start.span.cover stop) value) :=
    fun value => (symbol_advances _).bind fun stop => shrinks_recovering.pure _
  apply advances_ifAt .semicolon
  · exact advances_bind (shrinks_recovering.pure none) hstop
  · exact advances_bind (shrinks_recovering.map _ shrinks_recovering.expression) hstop

section Block

variable {block : Parser Block} (hshrinks : Keeps Shrinks block)
include hshrinks

theorem conditional_advances : Advances (conditional block) := by
  apply advances_bind shrinks_recovering.shift
  intro start
  apply condition_advances.bind
  intro test
  exact shrinks_recovering.bind hshrinks (shrinks_recovering.alternative hshrinks _ test)

theorem whileLoop_advances : Advances (whileLoop block) := by
  apply advances_bind shrinks_recovering.shift
  intro start
  apply condition_advances.bind
  intro test
  exact shrinks_recovering.bind hshrinks fun body => shrinks_recovering.pure _

theorem statement_advances (hblock : Advances block) : Advances (statement block) := by
  apply advances_bind shrinks_recovering.peek
  intro token
  split
  · exact variableDecl_advances.bind fun decl => shrinks_recovering.pure _
  · exact conditional_advances hshrinks
  · exact whileLoop_advances hshrinks
  · exact leave_advances
  · exact hblock.bind fun inner => shrinks_recovering.pure _
  · exact evaluation_advances.bind fun evaluated => shrinks_recovering.pure _

end Block

theorem blockWithin_advances (levels : Nat) : Advances (blockWithin levels) := by
  cases levels with
  | zero =>
      intro state after value hrun
      cases hrun
  | succ levels =>
      apply Advances.budgeted
      apply (symbol_advances _).bind
      intro start
      apply shrinks_recovering.bind (shrinks_recoverClosed.statements
        (shrinks_recovering.statement (shrinks_recovering.blockWithin levels)))
      intro stmts
      exact shrinks_recovering.bind (shrinks_recovering.symbol _) fun stop =>
        shrinks_recovering.pure _

theorem declaration_advances : Advances declaration := by
  apply typeName_advances.bind
  intro type
  apply shrinks_recovering.bind shrinks_recovering.identifier
  intro name
  apply shrinks_recovering.ifAt .openParen
  · exact shrinks_recovering.bind (shrinks_recovering.functionAfter _ _ _) fun function =>
      shrinks_recovering.pure _
  · exact shrinks_recovering.bind (shrinks_recovering.variableAfter _ _ _) fun decl =>
      shrinks_recovering.pure _

theorem item_advances : Advances item := by
  apply advances_bind shrinks_recovering.peek
  intro token
  split
  · exact declaration_advances
  · exact evaluation_advances.bind fun evaluated => shrinks_recovering.pure _

/-! ## Rounds -/

theorem exists_of_current_ne_eof {state : ParserState} (heof : state.current.kind ≠ .eof) :
    ∃ rest, state.tokens = state.current :: rest := by
  cases htokens : state.tokens with
  | nil => exact absurd (by rw [ParserState.current, htokens]) heof
  | cons token rest => exact ⟨rest, by rw [ParserState.current, htokens]⟩

theorem resume_cons_suffix {token : Token} (htoken : token.kind ≠ .symbol .closeBrace)
    (rest : List Token) : resume (token :: rest) <:+ rest := by
  rw [resume, if_neg htoken]
  split
  · exact List.suffix_refl rest
  · exact resume_suffix rest

/-- After a failure reading goes on behind the first token, if that does not close a
block. -/
theorem resume_suffix_of_suffix {token : Token} {rest left : List Token}
    (htoken : token.kind ≠ .symbol .closeBrace) (hleft : left <:+ token :: rest) :
    resume left <:+ rest := by
  rcases List.suffix_cons_iff.mp hleft with rfl | hleft
  · exact resume_cons_suffix htoken rest
  · exact (resume_suffix left).trans hleft

theorem dropCloseBrace_resume_suffix {token : Token} {rest left : List Token}
    (hleft : left <:+ token :: rest) : dropCloseBrace (resume left) <:+ rest := by
  by_cases htoken : token.kind = .symbol .closeBrace
  · rcases List.suffix_cons_iff.mp hleft with rfl | hleft
    · have hsemicolon : token.kind ≠ .symbol .semicolon := by simp [htoken]
      have hdropped : dropCloseBrace (resume (token :: rest)) = rest := by
        rw [resume, if_neg hsemicolon, if_pos htoken, dropCloseBrace, if_pos htoken]
      exact hdropped.symm ▸ List.suffix_refl rest
    · exact (dropCloseBrace_suffix _).trans ((resume_suffix left).trans hleft)
  · exact (dropCloseBrace_suffix _).trans (resume_suffix_of_suffix htoken hleft)

/-- A round of statements takes at least one token, whether it succeeds or fails. -/
theorem recover_advances {parser : Parser α} (hshrinks : Keeps Shrinks parser)
    (hparser : Advances parser) {state : ParserState} (hend : atBlockEnd state = false) :
    (recover parser state).2.tokens.length < state.tokens.length := by
  rw [atBlockEnd, Bool.or_eq_false_iff, decide_eq_false_iff_not,
    decide_eq_false_iff_not] at hend
  obtain ⟨rest, htokens⟩ := exists_of_current_ne_eof hend.2
  rw [recover]
  cases hrun : parser state with
  | ok value after => exact hparser hrun
  | error error after =>
      have hleft := hshrinks state
      rw [finalState_of_error hrun, Shrinks, htokens] at hleft
      have hlength := (resume_suffix_of_suffix hend.1 hleft).length_le
      rw [htokens, List.length_cons]
      exact Nat.lt_succ_of_le hlength

/-- A round of items takes at least one token, whether it succeeds or fails. -/
theorem itemStep_advances {state : ParserState} (heof : state.current.kind ≠ .eof) :
    (itemStep state).2.tokens.length < state.tokens.length := by
  obtain ⟨rest, htokens⟩ := exists_of_current_ne_eof heof
  rw [itemStep, recover]
  cases hrun : item state with
  | ok value after => exact item_advances hrun
  | error error after =>
      have hleft := shrinks_recovering.item state
      rw [finalState_of_error hrun, Shrinks, htokens] at hleft
      have hlength := (dropCloseBrace_resume_suffix hleft).length_le
      rw [htokens, List.length_cons]
      exact Nat.lt_succ_of_le hlength

/-! ## Bounds -/

theorem current_of_length_le_zero {state : ParserState} (hnone : state.tokens.length ≤ 0) :
    state.current.kind = .eof := by
  rw [ParserState.current, List.length_eq_zero_iff.mp (Nat.le_zero.mp hnone)]

/-- Each round takes a comma, so with as many rounds as tokens one more changes
nothing. -/
theorem moreAfterComma_succ {element : Parser α} (hshrinks : Keeps Shrinks element)
    (bound : Nat) : ∀ {state : ParserState}, state.tokens.length ≤ bound →
      moreAfterComma element (bound + 1) state = moreAfterComma element bound state := by
  induction bound with
  | zero =>
      intro state hbound
      have heof := current_of_length_le_zero hbound
      rw [moreAfterComma, moreAfterComma, bind_of_ok _ (at?_apply _ state), heof]
      rfl
  | succ bound ih =>
      intro state hbound
      rw [moreAfterComma, moreAfterComma, bind_of_ok _ (at?_apply _ state),
        bind_of_ok _ (at?_apply _ state)]
      by_cases hcomma : state.current.kind = .symbol .comma
      · simp only [hcomma, decide_true, if_true]
        have hshift : shift state = .ok state.current { state with tokens := state.tokens.tail } :=
          rfl
        rw [bind_of_ok _ hshift, bind_of_ok _ hshift]
        have hlength := (consumes_tail hcomma (by simp)).length_lt
        cases hrun : element { state with tokens := state.tokens.tail } with
        | ok next after =>
            have hafter := (hshrinks.of_ok hrun).length_le
            rw [bind_of_ok _ hrun, bind_of_ok _ hrun]
            exact bind_congr_run _ (ih (by omega))
        | error error after => rw [bind_of_error _ hrun, bind_of_error _ hrun]
      · simp only [hcomma, decide_false]
        rfl

theorem moreAfterComma_of_le {element : Parser α} (hshrinks : Keeps Shrinks element)
    {bound : Nat} {state : ParserState} (hbound : state.tokens.length ≤ bound) :
    moreAfterComma element bound state =
      moreAfterComma element state.tokens.length state := by
  induction hbound with
  | refl => rfl
  | step hbound ih => rw [moreAfterComma_succ hshrinks _ hbound, ih]

section Statements

variable {statement : Parser Stmt} (hshrinks : Keeps Shrinks statement)
variable (hadvances : Advances statement)
include hshrinks hadvances

theorem statementsWithin_succ (bound : Nat) :
    ∀ {state : ParserState}, state.tokens.length ≤ bound →
      statementsWithin statement (bound + 1) state = statementsWithin statement bound state := by
  induction bound with
  | zero =>
      intro state hbound
      have hend : atBlockEnd state = true := by
        rw [atBlockEnd, current_of_length_le_zero hbound]
        rfl
      rw [statementsWithin, statementsWithin, if_pos hend]
  | succ bound ih =>
      intro state hbound
      rw [statementsWithin, statementsWithin]
      cases hend : atBlockEnd state with
      | true => rfl
      | false =>
          have hlength := recover_advances hshrinks hadvances hend
          simp only [Bool.false_eq_true, if_false]
          rw [ih (by omega)]

theorem statementsWithin_of_le {bound : Nat} {state : ParserState}
    (hbound : state.tokens.length ≤ bound) :
    statementsWithin statement bound state =
      statementsWithin statement state.tokens.length state := by
  induction hbound with
  | refl => rfl
  | step hbound ih => rw [statementsWithin_succ hshrinks hadvances _ hbound, ih]

end Statements

/-- With as many rounds as tokens, the items are read to the end of the source. -/
theorem current_itemsWithin (bound : Nat) :
    ∀ {state : ParserState}, state.tokens.length ≤ bound →
      (itemsWithin bound state).2.current.kind = .eof := by
  induction bound with
  | zero =>
      intro state hbound
      exact current_of_length_le_zero hbound
  | succ bound ih =>
      intro state hbound
      rw [itemsWithin]
      by_cases heof : state.current.kind = .eof
      · rwa [if_pos heof]
      · have hlength := itemStep_advances heof
        rw [if_neg heof]
        exact ih (by omega)

theorem itemsWithin_succ (bound : Nat) :
    ∀ {state : ParserState}, state.tokens.length ≤ bound →
      itemsWithin (bound + 1) state = itemsWithin bound state := by
  induction bound with
  | zero =>
      intro state hbound
      rw [itemsWithin, itemsWithin, if_pos (current_of_length_le_zero hbound)]
  | succ bound ih =>
      intro state hbound
      rw [itemsWithin, itemsWithin]
      by_cases heof : state.current.kind = .eof
      · rw [if_pos heof, if_pos heof]
      · have hlength := itemStep_advances heof
        simp only [heof, if_false]
        rw [ih (by omega)]

theorem itemsWithin_of_le {bound : Nat} {state : ParserState}
    (hbound : state.tokens.length ≤ bound) :
    itemsWithin bound state = itemsWithin state.tokens.length state := by
  induction hbound with
  | refl => rfl
  | step hbound ih => rw [itemsWithin_succ _ hbound, ih]

end DeclCheck.Parser
