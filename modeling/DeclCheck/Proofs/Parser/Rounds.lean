import DeclCheck.Proofs.Parser.Taking

/-!
# A round up to a semicolon

Where no brace stands before the next semicolon, one round of a loop over items or
statements ends right behind that semicolon.  Either it reads an item or a statement up to
there, or it files one error: whatever goes wrong, nothing from the semicolon on has been
taken yet, and recovery moves behind it.
-/

namespace DeclCheck.Parser

variable {α β : Type}

/-- The kinds of tokens other than semicolons, braces and the end of the source. -/
def isInner : TokenKind → Bool
  | .symbol mark => mark ≠ .semicolon && mark ≠ .openBrace && mark ≠ .closeBrace
  | .eof => false
  | _ => true

theorem ne_of_isInner {kind other : TokenKind} (hkind : isInner kind = true)
    (hother : isInner other = false) : kind ≠ other := by
  rintro rfl
  rw [hkind] at hother
  cases hother

/-- The state differs from the origin in its tokens alone: they are some inner ones, then
a semicolon and the rest. -/
def Facing (origin : ParserState) (rest : List Token) (state : ParserState) : Prop :=
  ∃ inner stop, (∀ token ∈ inner, isInner token.kind = true) ∧
    stop.kind = .symbol .semicolon ∧ state = { origin with tokens := inner ++ stop :: rest }

/-- Whoever faces the semicolon at first does so later. -/
def StillFacing (origin : ParserState) (rest : List Token) (before after : ParserState) :
    Prop :=
  Facing origin rest before → Facing origin rest after

section Rounds

variable {origin state : ParserState} {rest : List Token}

/-- The next token is an inner one, or the semicolon with the rest behind it. -/
theorem Facing.current_cases (hstate : Facing origin rest state) :
    isInner state.current.kind = true ∨
      state.current.kind = .symbol .semicolon ∧
        { state with tokens := state.tokens.tail } = { origin with tokens := rest } := by
  obtain ⟨inner, stop, hinner, hstop, rfl⟩ := hstate
  cases inner with
  | nil => exact .inr ⟨hstop, rfl⟩
  | cons token more => exact .inl (hinner token List.mem_cons_self)

theorem Facing.current_ne {kind : TokenKind} (hstate : Facing origin rest state)
    (hinner : isInner kind = false) (hkind : kind ≠ .symbol .semicolon) :
    state.current.kind ≠ kind := by
  rcases hstate.current_cases with hcurrent | ⟨hcurrent, _⟩
  · exact ne_of_isInner hcurrent hinner
  · rw [hcurrent]
    exact hkind.symm

/-- What takes inner tokens alone does not get past the semicolon. -/
theorem facing_takeClosed : TakeClosed isInner (StillFacing origin rest) where
  refl _ hstate := hstate
  trans hfirst hsecond hstate := hsecond (hfirst hstate)
  take state htoken hstate := by
    obtain ⟨inner, stop, hinner, hstop, rfl⟩ := hstate
    cases inner with
    | nil => exact absurd hstop (ne_of_isInner htoken rfl)
    | cons token more => exact ⟨more, stop, (List.forall_mem_cons.mp hinner).2, hstop, rfl⟩

theorem expression_facing : Keeps (StillFacing origin rest) expression := by
  intro state hstate
  obtain ⟨tokens, left, htokens, hexpression, hfinal⟩ := exists_finalState_expression state
  obtain ⟨inner, stop, hinner, hstop, rfl⟩ := hstate
  rw [hfinal]
  rcases List.append_eq_append_iff.mp htokens with ⟨more, rfl, hmore⟩ | ⟨more, rfl, rfl⟩
  · cases more with
    | nil =>
        rw [List.nil_append] at hmore
        exact ⟨[], stop, List.forall_mem_nil _, hstop, by rw [List.nil_append, hmore]⟩
    | cons token others =>
        -- the semicolon would have been taken as part of an expression
        cases hmore
        have htaken := hexpression stop (List.mem_append_right _ List.mem_cons_self)
        rw [hstop] at htaken
        cases htaken
  · exact ⟨more, stop, fun token hmem => hinner token (List.mem_append_right _ hmem), hstop,
      rfl⟩

/-! ## Runs that end with the semicolon -/

/-- A run from the state takes the semicolon last, or fails before it. -/
def EndsFrom (origin : ParserState) (rest : List Token) (state : ParserState)
    (parser : Parser α) : Prop :=
  match parser state with
  | .ok _ after => after = { origin with tokens := rest }
  | .error _ after => Facing origin rest after

/-- Wherever a semicolon is ahead, the parser takes it last, or fails before it. -/
def Ends (origin : ParserState) (rest : List Token) (parser : Parser α) : Prop :=
  ∀ state, Facing origin rest state → EndsFrom origin rest state parser

theorem ends_bind_run {parser : Parser α} {next : α → Parser β}
    (hfirst : Facing origin rest (finalState parser state))
    (hnext : ∀ value, Ends origin rest (next value)) :
    EndsFrom origin rest state (parser >>= next) := by
  rw [EndsFrom]
  cases hrun : parser state with
  | ok value after =>
      rw [finalState_of_ok hrun] at hfirst
      rw [bind_of_ok next hrun]
      exact hnext value after hfirst
  | error error after =>
      rw [finalState_of_error hrun] at hfirst
      rwa [bind_of_error next hrun]

theorem ends_bind {parser : Parser α} {next : α → Parser β}
    (hparser : Keeps (StillFacing origin rest) parser)
    (hnext : ∀ value, Ends origin rest (next value)) :
    Ends origin rest (parser >>= next) :=
  fun state hstate => ends_bind_run (hparser state hstate) hnext

theorem Ends.map {parser : Parser α} (hparser : Ends origin rest parser) (f : α → β) :
    Ends origin rest (do return f (← parser)) := by
  intro state hstate
  have hrun := hparser state hstate
  rw [EndsFrom] at hrun ⊢
  cases hresult : parser state with
  | ok value after =>
      rw [bind_of_ok _ hresult]
      rwa [hresult] at hrun
  | error error after =>
      rw [bind_of_error _ hresult]
      rwa [hresult] at hrun

theorem ends_shift {next : Token → Parser α} (hstate : Facing origin rest state)
    (htoken : isInner state.current.kind = true)
    (hnext : ∀ token, Ends origin rest (next token)) :
    EndsFrom origin rest state (shift >>= next) :=
  ends_bind_run (facing_takeClosed.take state htoken hstate) hnext

theorem ends_ifAt (mark : Symbol) {there otherwise : Parser α}
    (hthere : ∀ state, Facing origin rest state → state.current.kind = .symbol mark →
      EndsFrom origin rest state there)
    (hotherwise : Ends origin rest otherwise) :
    Ends origin rest (do if ← at? mark then there else otherwise) := by
  intro state hstate
  rw [EndsFrom, bind_of_ok _ (at?_apply mark state)]
  by_cases hat : state.current.kind = .symbol mark
  · simp only [hat, decide_true, if_true]
    exact hthere state hstate hat
  · simp only [hat, decide_false]
    exact hotherwise state hstate

theorem semicolon_ends : Ends origin rest (symbol .semicolon) := by
  intro state hstate
  rw [EndsFrom, symbol_apply]
  rcases hstate.current_cases with hinner | ⟨hsemicolon, htail⟩
  · rw [if_neg (ne_of_isInner hinner rfl)]
    exact hstate
  · rw [if_pos hsemicolon]
    exact htail

/-- A block that does not begin takes nothing. -/
theorem blockWithin_error (levels : Nat) {state : ParserState}
    (hbrace : state.current.kind ≠ .symbol .openBrace) :
    ∃ error, blockWithin levels state = .error error state := by
  cases levels with
  | zero => exact ⟨_, rfl⟩
  | succ levels =>
      by_cases hdeep : state.depth + constructCost > nestingBudget
      · exact ⟨_, budgeted_of_gt _ _ hdeep⟩
      · have hopening : symbol .openBrace
            { state with depth := state.depth + constructCost } = .error _ _ :=
          (symbol_apply _ _).trans (if_neg hbrace)
        have hbraced : braced (statement (blockWithin levels))
            { state with depth := state.depth + constructCost } = .error _ _ :=
          bind_of_error _ hopening
        have hbudgeted := budgeted_of_error .block (Nat.le_of_not_gt hdeep) hbraced
        exact ⟨_, hbudgeted⟩

/-- What needs a block fails before the semicolon. -/
theorem block_ends (levels : Nat) (next : Block → Parser α) :
    Ends origin rest (blockWithin levels >>= next) := by
  intro state hstate
  obtain ⟨error, hrun⟩ := blockWithin_error levels (hstate.current_ne rfl (by simp))
  rw [EndsFrom, bind_of_error next hrun]
  exact hstate

/-! ## Statements -/

theorem some_expression_facing : Keeps (StillFacing origin rest) (some <$> expression) := by
  rw [map_eq_bind]
  exact facing_takeClosed.bind expression_facing fun value => facing_takeClosed.pure _

theorem variableAfter_ends (type : TypeName) (start : Span) (name : String) :
    Ends origin rest (variableAfter type start name) := by
  have hclosed : ∀ init : Option Expr, Ends origin rest (do
      let stop ← symbol .semicolon
      return { type := type.spelling, name := name, init := init,
               span := start.cover stop : VariableDecl }) :=
    fun init => semicolon_ends.map _
  apply ends_ifAt .assign
  · intro state hstate hassign
    exact ends_shift hstate (hassign ▸ rfl) fun _ => ends_bind some_expression_facing hclosed
  · exact ends_bind (facing_takeClosed.pure none) hclosed

theorem variableDecl_ends : Ends origin rest variableDecl := by
  apply ends_bind (facing_takeClosed.typeName fun _ => rfl)
  intro type
  apply ends_bind (facing_takeClosed.identifier fun _ => rfl)
  exact fun name => variableAfter_ends _ _ _

theorem condition_facing : Keeps (StillFacing origin rest) condition := by
  refine facing_takeClosed.bind (facing_takeClosed.symbol rfl) fun _ => ?_
  refine facing_takeClosed.bind expression_facing fun expr => ?_
  exact facing_takeClosed.bind (facing_takeClosed.symbol rfl) fun _ => facing_takeClosed.pure _

theorem evaluation_ends : Ends origin rest evaluation :=
  ends_bind expression_facing fun _ => semicolon_ends.map _

theorem leave_ends (hstate : Facing origin rest state)
    (hword : isInner state.current.kind = true) : EndsFrom origin rest state leave := by
  refine ends_shift hstate hword fun start => ?_
  have hclosed : ∀ value : Option Expr, Ends origin rest (do
      let stop ← symbol .semicolon
      return Stmt.leave (start.span.cover stop) value) :=
    fun value => semicolon_ends.map _
  apply ends_ifAt .semicolon
  · exact fun state hstate _ => ends_bind (facing_takeClosed.pure none) hclosed state hstate
  · exact ends_bind some_expression_facing hclosed

theorem conditional_ends (levels : Nat) (hstate : Facing origin rest state)
    (hword : isInner state.current.kind = true) :
    EndsFrom origin rest state (conditional (blockWithin levels)) :=
  ends_shift hstate hword fun _ =>
    ends_bind condition_facing fun _ => block_ends levels _

theorem whileLoop_ends (levels : Nat) (hstate : Facing origin rest state)
    (hword : isInner state.current.kind = true) :
    EndsFrom origin rest state (whileLoop (blockWithin levels)) :=
  ends_shift hstate hword fun _ =>
    ends_bind condition_facing fun _ => block_ends levels _

theorem statement_ends (levels : Nat) : Ends origin rest (statement (blockWithin levels)) := by
  have hevaluate : Ends origin rest (do
      let read ← evaluation
      return Stmt.evaluate read.2 read.1) :=
    evaluation_ends.map fun read => Stmt.evaluate read.2 read.1
  intro state hstate
  rw [EndsFrom, statement, bind_of_ok _ (peek_apply state)]
  cases hkind : state.current.kind with
  | type name => exact variableDecl_ends.map Stmt.declare state hstate
  | keyword word =>
      have hword : isInner state.current.kind = true := hkind ▸ rfl
      cases word with
      | ifWord => exact conditional_ends levels hstate hword
      | whileWord => exact whileLoop_ends levels hstate hword
      | returnWord => exact leave_ends hstate hword
      | _ => exact hevaluate state hstate
  | symbol mark =>
      cases mark with
      | openBrace =>
          -- no block begins here, since no brace stands before the semicolon
          exact absurd hkind (hstate.current_ne rfl (by simp))
      | _ => exact hevaluate state hstate
  | _ => exact hevaluate state hstate

/-! ## Items -/

theorem parameter_facing : Keeps (StillFacing origin rest) parameter := by
  refine facing_takeClosed.bind (facing_takeClosed.typeName fun _ => rfl) fun type => ?_
  exact facing_takeClosed.bind (facing_takeClosed.identifier fun _ => rfl) fun name =>
    facing_takeClosed.pure _

theorem functionAfter_ends (type : TypeName) (start : Span) (name : String) :
    Ends origin rest (functionAfter type start name) := by
  have hbody : ∀ params : Option (List Parameter), Ends origin rest (do
      let _ ← symbol .closeParen
      let body ← block
      return { returnType := type.spelling, name := name, params := params,
               body := some body, span := start.cover body.span : FunctionDecl }) :=
    fun params => ends_bind (facing_takeClosed.symbol rfl) fun _ => block_ends _ _
  have hparams : Keeps (StillFacing origin rest) (some <$> separatedByCommas parameter) := by
    rw [map_eq_bind]
    exact facing_takeClosed.bind (facing_takeClosed.separatedByCommas rfl parameter_facing)
      fun params => facing_takeClosed.pure _
  apply ends_bind (facing_takeClosed.symbol rfl)
  intro _
  apply ends_ifAt .closeParen
  · exact fun state hstate _ => ends_bind (facing_takeClosed.pure none) hbody state hstate
  · exact ends_bind hparams hbody

theorem declaration_ends : Ends origin rest declaration := by
  apply ends_bind (facing_takeClosed.typeName fun _ => rfl)
  intro type
  apply ends_bind (facing_takeClosed.identifier fun _ => rfl)
  intro name
  apply ends_ifAt .openParen
  · exact fun state hstate _ => (functionAfter_ends _ _ _).map Item.function state hstate
  · exact (variableAfter_ends _ _ _).map Item.global

theorem item_ends : Ends origin rest item := by
  intro state hstate
  rw [EndsFrom, item, bind_of_ok _ (peek_apply state)]
  cases state.current.kind with
  | type name => exact declaration_ends state hstate
  | _ => exact evaluation_ends.map (fun read => Item.expression read.2 read.1) state hstate

/-! ## Rounds -/

theorem resume_of_inner {inner : List Token} {stop : Token}
    (hinner : ∀ token ∈ inner, isInner token.kind = true)
    (hstop : stop.kind = .symbol .semicolon) : resume (inner ++ stop :: rest) = rest := by
  induction inner with
  | nil => rw [List.nil_append, resume, if_pos hstop]
  | cons token more ih =>
      obtain ⟨htoken, hmore⟩ := List.forall_mem_cons.mp hinner
      rw [List.cons_append, resume, if_neg (ne_of_isInner htoken rfl),
        if_neg (ne_of_isInner htoken rfl), ih hmore]

/-- A parser that fails before the semicolon costs its one error. -/
theorem recover_of_error {parser : Parser α} (hparser : Ends origin rest parser)
    (hstate : Facing origin rest state) {error : SyntaxError} {after : ParserState}
    (hrun : parser state = .error error after) :
    recover parser state =
      (none, { origin with
        tokens := rest
        reports := origin.reports ++ [{ error := error, raisedAt := after.current.span }] }) := by
  have hafter := hparser state hstate
  rw [EndsFrom, hrun] at hafter
  obtain ⟨inner, stop, hinner, hstop, rfl⟩ := hafter
  rw [recover, hrun]
  simp only [resume_of_inner hinner hstop]

/-- A round reads something or files an error, and ends behind the semicolon. -/
theorem recover_cases {parser : Parser α} (hparser : Ends origin rest parser)
    (hstate : Facing origin rest state) :
    (∃ value, recover parser state = (some value, { origin with tokens := rest })) ∨
      ∃ report, recover parser state =
        (none, { origin with tokens := rest, reports := origin.reports ++ [report] }) := by
  cases hresult : parser state with
  | ok value after =>
      have hafter := hparser state hstate
      rw [EndsFrom, hresult] at hafter
      exact .inl ⟨value, by rw [recover, hresult, hafter]⟩
  | error error after => exact .inr ⟨_, recover_of_error hparser hstate hresult⟩

theorem facing_self {inner : List Token} {stop : Token}
    (hinner : ∀ token ∈ inner, isInner token.kind = true)
    (hstop : stop.kind = .symbol .semicolon)
    (htokens : state.tokens = inner ++ stop :: rest) : Facing state rest state :=
  ⟨inner, stop, hinner, hstop, by rw [← htokens]⟩

theorem itemStep_cases (hstate : Facing origin rest state) :
    (∃ read, itemStep state = (some read, { origin with tokens := rest })) ∨
      ∃ report, itemStep state =
        (none, { origin with
          tokens := dropCloseBrace rest
          reports := origin.reports ++ [report] }) := by
  rw [itemStep]
  rcases recover_cases item_ends hstate with ⟨read, hread⟩ | ⟨report, hreport⟩
  · rw [hread]
    exact .inl ⟨read, rfl⟩
  · rw [hreport]
    exact .inr ⟨report, rfl⟩

end Rounds

/-- Where inner tokens and a semicolon come next, one round of the loop over items or over
statements adds one item or one statement, or it adds one error, and the next round starts
behind the semicolon.  At the top level a closing brace there is skipped after an error. -/
theorem round_to_semicolon {state : ParserState} {inner rest : List Token} {stop : Token}
    (hinner : ∀ token ∈ inner, isInner token.kind = true)
    (hstop : stop.kind = .symbol .semicolon)
    (htokens : state.tokens = inner ++ stop :: rest) :
    ((∃ read, ∀ bound, itemsWithin (bound + 1) state =
        let more := itemsWithin bound { state with tokens := rest }
        (read :: more.1, more.2)) ∨
      ∃ report, ∀ bound, itemsWithin (bound + 1) state =
        itemsWithin bound { state with
          tokens := dropCloseBrace rest
          reports := state.reports ++ [report] }) ∧
    ∀ levels,
      let loop := statementsWithin (statement (blockWithin levels))
      (∃ read, ∀ bound, loop (bound + 1) state =
        let more := loop bound { state with tokens := rest }
        (read :: more.1, more.2)) ∨
      ∃ report, ∀ bound, loop (bound + 1) state =
        loop bound { state with tokens := rest, reports := state.reports ++ [report] } := by
  have hstate := facing_self hinner hstop htokens
  have heof : state.current.kind ≠ .eof := hstate.current_ne rfl (by simp)
  have hend : atBlockEnd state = false := by
    rw [atBlockEnd, Bool.or_eq_false_iff, decide_eq_false_iff_not, decide_eq_false_iff_not]
    exact ⟨hstate.current_ne rfl (by simp), heof⟩
  constructor
  · rcases itemStep_cases hstate with ⟨read, hread⟩ | ⟨report, hreport⟩
    · refine .inl ⟨read, fun bound => ?_⟩
      rw [itemsWithin, if_neg heof, hread]
      rfl
    · refine .inr ⟨report, fun bound => ?_⟩
      rw [itemsWithin, if_neg heof, hreport]
      rfl
  · intro levels loop
    rcases recover_cases (statement_ends levels) hstate with ⟨read, hread⟩ | ⟨report, hreport⟩
    · refine .inl ⟨read, fun bound => ?_⟩
      simp only [loop, statementsWithin, hend, hread]
      rfl
    · refine .inr ⟨report, fun bound => ?_⟩
      simp only [loop, statementsWithin, hend, hreport]
      rfl

/-- An unclosed parenthesis costs one error, and the brace behind the semicolon is skipped
with it. -/
theorem round_to_semicolon_unclosed :
    let inner : List Token :=
      [⟨.identifier "x", {}⟩, ⟨.symbol .assign, {}⟩, ⟨.symbol .openParen, {}⟩]
    let state : ParserState := {
      tokens := inner ++ ⟨.symbol .semicolon, {}⟩ :: [⟨.symbol .closeBrace, {}⟩]
      endSpan := {} }
    (∀ token ∈ inner, isInner token.kind = true) ∧
      ∃ report, itemsWithin 1 state = ([], { state with tokens := [], reports := [report] }) := by
  intro inner state
  have hinner : ∀ token ∈ inner, isInner token.kind = true := by decide
  refine ⟨hinner, ?_⟩
  rcases (round_to_semicolon hinner rfl (rfl : state.tokens = _)).1 with
    ⟨read, hread⟩ | ⟨report, hreport⟩
  · have hnone : (itemsWithin 1 state).1.length = 0 := by decide +kernel
    rw [hread 0] at hnone
    cases hnone
  · exact ⟨report, hreport 0⟩

end DeclCheck.Parser
