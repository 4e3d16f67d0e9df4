import DeclCheck.Parser.Program

/-!
# Runs of parsers

How a run of a compound parser is put together from the runs of its parts, and
what the parsers at the bottom do.
-/

namespace DeclCheck.Parser

variable {α β : Type}

theorem bind_eq_ok_iff {parser : Parser α} {next : α → Parser β}
    {state last : ParserState} {result : β} :
    (parser >>= next) state = .ok result last ↔
      ∃ value after, parser state = .ok value after ∧
        next value after = .ok result last := by
  change EStateM.bind parser next state = .ok result last ↔ _
  simp only [EStateM.bind]
  cases parser state with
  | ok value after =>
      constructor
      · intro hnext
        exact ⟨value, after, rfl, hnext⟩
      · rintro ⟨_, _, hrun, hnext⟩
        cases hrun
        exact hnext
  | error error after => simp

theorem bind_of_ok {parser : Parser α} (next : α → Parser β)
    {state after : ParserState} {value : α}
    (hrun : parser state = .ok value after) :
    (parser >>= next) state = next value after := by
  change EStateM.bind parser next state = _
  simp only [EStateM.bind, hrun]

theorem bind_of_error {parser : Parser α} (next : α → Parser β)
    {state after : ParserState} {error : SyntaxError}
    (hrun : parser state = .error error after) :
    (parser >>= next) state = .error error after := by
  change EStateM.bind parser next state = _
  simp only [EStateM.bind, hrun]

/-- What follows a run depends on nothing but its result. -/
theorem bind_congr_run {first second : Parser α} (next : α → Parser β)
    {state other : ParserState} (hrun : first state = second other) :
    (first >>= next) state = (second >>= next) other := by
  change EStateM.bind first next state = EStateM.bind second next other
  simp only [EStateM.bind, hrun]

/-- What follows a run matters only where the run succeeds. -/
theorem bind_congr_ok {parser : Parser α} {next other : α → Parser β} {state : ParserState}
    (hnext : ∀ value after, parser state = .ok value after →
      next value after = other value after) :
    (parser >>= next) state = (parser >>= other) state := by
  cases hrun : parser state with
  | ok value after => rw [bind_of_ok _ hrun, bind_of_ok _ hrun, hnext value after hrun]
  | error error after => rw [bind_of_error _ hrun, bind_of_error _ hrun]

@[simp]
theorem pure_apply (value : α) (state : ParserState) :
    (pure value : Parser α) state = .ok value state := rfl

theorem map_eq_bind (f : α → β) (parser : Parser α) :
    f <$> parser = parser >>= fun value => pure (f value) :=
  (bind_pure_comp f parser).symm

@[simp]
theorem peek_apply (state : ParserState) :
    peek state = .ok state.current state := rfl

@[simp]
theorem tokensLeft_apply (state : ParserState) :
    tokensLeft state = .ok state.tokens.length state := rfl

@[simp]
theorem at?_apply (mark : Symbol) (state : ParserState) :
    at? mark state = .ok (decide (state.current.kind = .symbol mark)) state := rfl

theorem symbol_apply (mark : Symbol) (state : ParserState) :
    symbol mark state =
      if state.current.kind = .symbol mark then
        .ok state.current.span { state with tokens := state.tokens.tail }
      else
        .error { cause := .mismatch (.symbol mark) state.current.kind,
                 span := state.current.span } state := by
  rw [symbol, bind_of_ok _ (at?_apply mark state)]
  by_cases hmark : state.current.kind = .symbol mark
  · simp only [hmark, decide_true, if_true]
    rfl
  · simp only [hmark, decide_false, if_false]
    rfl

theorem identifier_apply (state : ParserState) :
    identifier state =
      match state.current.kind with
      | .identifier name =>
          .ok (name, state.current.span) { state with tokens := state.tokens.tail }
      | kind =>
          .error { cause := .mismatch .identifier kind,
                   span := state.current.span } state := by
  rw [identifier, bind_of_ok _ (peek_apply state)]
  cases hkind : state.current.kind <;> simp only [reject, ← hkind] <;> rfl

theorem typeName_apply (state : ParserState) :
    typeName state =
      match state.current.kind with
      | .type name =>
          .ok (name, state.current.span) { state with tokens := state.tokens.tail }
      | kind =>
          .error { cause := .mismatch .typeName kind,
                   span := state.current.span } state := by
  rw [typeName, bind_of_ok _ (peek_apply state)]
  cases hkind : state.current.kind <;> simp only [reject, ← hkind] <;> rfl

theorem spend_of_gt {cost : Nat} (construct : Construct) {state : ParserState}
    (hdeep : state.depth + cost > nestingBudget) :
    spend cost construct state =
      .error { cause := .tooDeep construct, span := state.current.span } state := by
  change (if state.depth + cost > nestingBudget then _ else _ : Parser Unit) state = _
  rw [if_pos hdeep]
  rfl

theorem spend_of_le {cost : Nat} (construct : Construct) {state : ParserState}
    (hleft : state.depth + cost ≤ nestingBudget) :
    spend cost construct state =
      .ok () { state with depth := state.depth + cost } := by
  change (if state.depth + cost > nestingBudget then _ else _ : Parser Unit) state = _
  rw [if_neg (Nat.not_lt.mpr hleft)]
  rfl

theorem spend_eq_ok {cost : Nat} {construct : Construct} {state after : ParserState}
    {done : Unit} (hrun : spend cost construct state = .ok done after) :
    state.depth + cost ≤ nestingBudget ∧
      after = { state with depth := state.depth + cost } := by
  by_cases hdeep : state.depth + cost > nestingBudget
  · rw [spend_of_gt construct hdeep] at hrun
    cases hrun
  · have hleft := Nat.le_of_not_gt hdeep
    rw [spend_of_le construct hleft] at hrun
    cases hrun
    exact ⟨hleft, rfl⟩

theorem budgeted_apply (cost : Nat) (construct : Construct) (parser : Parser α)
    (state : ParserState) :
    budgeted cost construct parser state =
      match (spend cost construct >>= fun _ => parser) state with
      | .ok value after => .ok value { after with depth := state.depth }
      | .error error after => .error error { after with depth := state.depth } :=
  rfl

theorem budgeted_of_gt {cost : Nat} (construct : Construct) (parser : Parser α)
    {state : ParserState} (hdeep : state.depth + cost > nestingBudget) :
    budgeted cost construct parser state =
      .error { cause := .tooDeep construct, span := state.current.span } state := by
  rw [budgeted_apply, bind_of_error _ (spend_of_gt construct hdeep)]

/-- What is read inside matters only where the budget allows it, and there one level
deeper. -/
theorem budgeted_congr {cost : Nat} {construct : Construct} {parser other : Parser α}
    {state : ParserState} (hinner : state.depth + cost ≤ nestingBudget →
      parser { state with depth := state.depth + cost } =
        other { state with depth := state.depth + cost }) :
    budgeted cost construct parser state = budgeted cost construct other state := by
  by_cases hdeep : state.depth + cost > nestingBudget
  · rw [budgeted_of_gt construct _ hdeep, budgeted_of_gt construct _ hdeep]
  · have hleft := Nat.le_of_not_gt hdeep
    have hspend := spend_of_le construct hleft
    rw [budgeted_apply, budgeted_apply, bind_of_ok _ hspend, bind_of_ok _ hspend,
      hinner hleft]

theorem budgeted_of_ok {cost : Nat} (construct : Construct) {parser : Parser α}
    {state after : ParserState} {value : α}
    (hleft : state.depth + cost ≤ nestingBudget)
    (hrun : parser { state with depth := state.depth + cost } = .ok value after) :
    budgeted cost construct parser state =
      .ok value { after with depth := state.depth } := by
  rw [budgeted_apply, bind_of_ok _ (spend_of_le construct hleft), hrun]

theorem budgeted_of_error {cost : Nat} (construct : Construct) {parser : Parser α}
    {state after : ParserState} {error : SyntaxError}
    (hleft : state.depth + cost ≤ nestingBudget)
    (hrun : parser { state with depth := state.depth + cost } =
      .error error after) :
    budgeted cost construct parser state =
      .error error { after with depth := state.depth } := by
  rw [budgeted_apply, bind_of_ok _ (spend_of_le construct hleft), hrun]

/-! ## Recovery -/

theorem resume_suffix (tokens : List Token) : resume tokens <:+ tokens := by
  induction tokens with
  | nil => exact List.suffix_refl _
  | cons token rest ih =>
      rw [resume]
      split
      · exact List.suffix_cons token rest
      · split
        · exact List.suffix_refl _
        · exact ih.trans (List.suffix_cons token rest)

theorem dropCloseBrace_suffix (tokens : List Token) : dropCloseBrace tokens <:+ tokens := by
  cases tokens with
  | nil => exact List.suffix_refl _
  | cons token rest =>
      rw [dropCloseBrace]
      split
      · exact List.suffix_cons token rest
      · exact List.suffix_refl _

end DeclCheck.Parser
