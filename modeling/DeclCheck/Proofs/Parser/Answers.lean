import DeclCheck.Proofs.Parser.Soundness

/-!
# A triple for parsers

`Answers` says of a parser that is started somewhere among given tokens where it
stops, what holds of its answer, and what it may complain about.  There is one rule
for each way of putting parsers together.  Where nothing is said about the answer, the
rules cover every parser of expressions: wherever they fail, they complain of a token or
a phrase that is there.
-/

namespace DeclCheck

open Grammar

/-- The tokens and, behind them, the end of the source. -/
def withEnd (tokens : List Token) (endSpan : Span) : List Token :=
  tokens ++ [{ kind := .eof, span := endSpan }]

/-- How a syntax error comes up among the tokens: it is about one of them or their end,
which it names if something else was wanted, or about a phrase that is no target of an
assignment. -/
inductive SyntaxError.Arises (tokens : List Token) (endSpan : Span) : SyntaxError → Prop
  | mismatch {token : Token} (hmem : token ∈ withEnd tokens endSpan) (wanted : Expectation) :
      Arises tokens endSpan { cause := .mismatch wanted token.kind, span := token.span }
  | tooDeep {token : Token} (hmem : token ∈ withEnd tokens endSpan) (construct : Construct) :
      Arises tokens endSpan { cause := .tooDeep construct, span := token.span }
  | invalidTarget {phrase : List Token} {expr : Expr} (hphrase : phrase <:+: tokens)
      (hexpr : DerivesExpr (.level .disjunction) phrase expr) :
      Arises tokens endSpan { cause := .invalidTarget, span := expr.span }

namespace Parser

variable {α β : Type}

/-- The state is one of those that a parser of the tokens goes through: an end of them
is left, and the errors filed so far came up among them. -/
structure Among (tokens : List Token) (endSpan : Span) (state : ParserState) : Prop where
  left : state.tokens <:+ tokens
  endSpan_eq : state.endSpan = endSpan
  reports : ∀ report ∈ state.reports, report.error.Arises tokens endSpan

/-- Started among the tokens, the parser stops among them.  Its answer satisfies the
condition, and if it fails, its error comes up among them. -/
def Answers (tokens : List Token) (endSpan : Span) (parser : Parser α)
    (holds : α → Prop) : Prop :=
  ∀ state, Among tokens endSpan state →
    match parser state with
    | .ok value after => Among tokens endSpan after ∧ holds value
    | .error error after => Among tokens endSpan after ∧ error.Arises tokens endSpan

/-- Nothing is said about the answer. -/
def Stays (tokens : List Token) (endSpan : Span) (parser : Parser α) : Prop :=
  Answers tokens endSpan parser fun _ => True

variable {tokens : List Token} {endSpan : Span}

theorem Answers.of_ok {parser : Parser α} {holds : α → Prop}
    (hparser : Answers tokens endSpan parser holds) {state after : ParserState} {value : α}
    (hstate : Among tokens endSpan state) (hrun : parser state = .ok value after) :
    Among tokens endSpan after ∧ holds value := by
  have hresult := hparser state hstate
  rwa [hrun] at hresult

theorem Answers.of_error {parser : Parser α} {holds : α → Prop}
    (hparser : Answers tokens endSpan parser holds) {state after : ParserState}
    {error : SyntaxError} (hstate : Among tokens endSpan state)
    (hrun : parser state = .error error after) :
    Among tokens endSpan after ∧ error.Arises tokens endSpan := by
  have hresult := hparser state hstate
  rwa [hrun] at hresult

/-! ## Rules -/

theorem Answers.pure {holds : α → Prop} {value : α} (hvalue : holds value) :
    Answers tokens endSpan (pure value) holds :=
  fun _ hstate => ⟨hstate, hvalue⟩

theorem pure_stays (value : α) : Stays tokens endSpan (pure value : Parser α) :=
  .pure trivial

theorem Answers.bind {parser : Parser α} {next : α → Parser β} {between : α → Prop}
    {holds : β → Prop} (hparser : Answers tokens endSpan parser between)
    (hnext : ∀ value, between value → Answers tokens endSpan (next value) holds) :
    Answers tokens endSpan (parser >>= next) holds := by
  intro state hstate
  cases hrun : parser state with
  | ok value after =>
      obtain ⟨hafter, hvalue⟩ := hparser.of_ok hstate hrun
      rw [bind_of_ok next hrun]
      exact hnext value hvalue after hafter
  | error error after =>
      rw [bind_of_error next hrun]
      exact hparser.of_error hstate hrun

theorem Answers.mono {parser : Parser α} {between holds : α → Prop}
    (hparser : Answers tokens endSpan parser between)
    (hmono : ∀ value, between value → holds value) :
    Answers tokens endSpan parser holds := by
  intro state hstate
  cases hrun : parser state with
  | ok value after =>
      obtain ⟨hafter, hvalue⟩ := hparser.of_ok hstate hrun
      exact ⟨hafter, hmono value hvalue⟩
  | error error after => exact hparser.of_error hstate hrun

/-- What the first parser answers need not be known. -/
theorem Stays.bind {parser : Parser α} {next : α → Parser β} {holds : β → Prop}
    (hparser : Stays tokens endSpan parser)
    (hnext : ∀ value, Answers tokens endSpan (next value) holds) :
    Answers tokens endSpan (parser >>= next) holds :=
  Answers.bind hparser fun value _ => hnext value

theorem Answers.map {parser : Parser α} {between : α → Prop} {holds : β → Prop}
    (f : α → β) (hparser : Answers tokens endSpan parser between)
    (hmap : ∀ value, between value → holds (f value)) :
    Answers tokens endSpan (f <$> parser) holds := by
  rw [map_eq_bind]
  exact hparser.bind fun value hvalue => .pure (hmap value hvalue)

theorem Among.atDepth {state : ParserState} (hstate : Among tokens endSpan state) (depth : Nat) :
    Among tokens endSpan { state with depth := depth } :=
  ⟨hstate.left, hstate.endSpan_eq, hstate.reports⟩

theorem Answers.keepingDepth {parser : Parser α} {holds : α → Prop}
    (hparser : Answers tokens endSpan parser holds) :
    Answers tokens endSpan (keepingDepth parser) holds := by
  intro state hstate
  rw [Parser.keepingDepth]
  cases hrun : parser state with
  | ok value after =>
      obtain ⟨hafter, hvalue⟩ := hparser.of_ok hstate hrun
      exact ⟨hafter.atDepth _, hvalue⟩
  | error error after => exact hparser.of_error hstate hrun

/-! ## Single tokens -/

/-- The next token is one of the tokens, or their end. -/
theorem Among.current {state : ParserState} (hstate : Among tokens endSpan state) :
    state.current ∈ withEnd tokens endSpan := by
  cases htokens : state.tokens with
  | nil =>
      rw [ParserState.current, htokens, hstate.endSpan_eq]
      exact List.mem_append_right _ List.mem_cons_self
  | cons token rest =>
      have hmem : token ∈ tokens :=
        hstate.left.subset (htokens ▸ List.mem_cons_self)
      rw [ParserState.current, htokens]
      exact List.mem_append_left _ hmem

theorem Among.tail {state : ParserState} (hstate : Among tokens endSpan state) :
    Among tokens endSpan { state with tokens := state.tokens.tail } :=
  ⟨(List.tail_suffix _).trans hstate.left, hstate.endSpan_eq, hstate.reports⟩

theorem peek_answers :
    Answers tokens endSpan peek (· ∈ withEnd tokens endSpan) :=
  fun _ hstate => ⟨hstate, hstate.current⟩

theorem at?_stays (mark : Symbol) : Stays tokens endSpan (at? mark) :=
  fun _ hstate => ⟨hstate, trivial⟩

theorem tokensLeft_stays : Stays tokens endSpan tokensLeft :=
  fun _ hstate => ⟨hstate, trivial⟩

theorem shift_stays : Stays tokens endSpan shift :=
  fun _ hstate => ⟨hstate.tail, trivial⟩

theorem throw_answers {holds : α → Prop} {error : SyntaxError}
    (herror : error.Arises tokens endSpan) :
    Answers tokens endSpan (throw error : Parser α) holds :=
  fun _ hstate => ⟨hstate, herror⟩

theorem reject_answers {holds : α → Prop} (wanted : Expectation) :
    Answers tokens endSpan (reject wanted : Parser α) holds := by
  apply peek_answers.bind
  intro token htoken
  exact throw_answers (.mismatch htoken wanted)

theorem tooDeep_answers {holds : α → Prop} (construct : Construct) :
    Answers tokens endSpan (tooDeep construct : Parser α) holds := by
  apply peek_answers.bind
  intro token htoken
  exact throw_answers (.tooDeep htoken construct)

theorem symbol_stays (mark : Symbol) : Stays tokens endSpan (symbol mark) := by
  apply (at?_stays mark).bind
  intro found
  split
  · exact shift_stays.bind fun _ => .pure trivial
  · exact reject_answers _

/-- The answer is the name of one of the tokens. -/
theorem identifier_answers :
    Answers tokens endSpan identifier fun named =>
      TokenKind.identifier named.1 ∈ tokens.map Token.kind := by
  apply peek_answers.bind
  intro token htoken
  split
  · rename_i name hname
    rcases List.mem_append.mp htoken with hmem | hend
    · have hnamed := List.mem_map_of_mem (f := Token.kind) hmem
      rw [hname] at hnamed
      exact shift_stays.bind fun _ => .pure hnamed
    · rw [List.mem_singleton.mp hend] at hname
      cases hname
  · exact reject_answers _

theorem typeName_stays : Stays tokens endSpan typeName := by
  apply peek_answers.bind
  intro token _
  split
  · exact shift_stays.bind fun _ => .pure trivial
  · exact reject_answers _

/-! ## Budget and lists -/

theorem spend_stays (cost : Nat) (construct : Construct) :
    Stays tokens endSpan (spend cost construct) := by
  intro state hstate
  by_cases hdeep : state.depth + cost > nestingBudget
  · rw [spend_of_gt construct hdeep]
    exact ⟨hstate, .tooDeep hstate.current construct⟩
  · rw [spend_of_le construct (Nat.le_of_not_gt hdeep)]
    exact ⟨hstate.atDepth _, trivial⟩

theorem Answers.budgeted {parser : Parser α} {holds : α → Prop} (cost : Nat)
    (construct : Construct) (hparser : Answers tokens endSpan parser holds) :
    Answers tokens endSpan (budgeted cost construct parser) holds := by
  have hboth : Answers tokens endSpan (spend cost construct >>= fun _ => parser) holds :=
    (spend_stays cost construct).bind fun _ => hparser
  intro state hstate
  rw [budgeted_apply]
  cases hrun : (spend cost construct >>= fun _ => parser) state with
  | ok value after =>
      obtain ⟨hafter, hvalue⟩ := hboth.of_ok hstate hrun
      exact ⟨hafter.atDepth _, hvalue⟩
  | error error after =>
      obtain ⟨hafter, herror⟩ := hboth.of_error hstate hrun
      exact ⟨hafter.atDepth _, herror⟩

theorem moreAfterComma_answers {element : Parser α} {holds : α → Prop}
    (helement : Answers tokens endSpan element holds) (bound : Nat) :
    Answers tokens endSpan (moreAfterComma element bound) fun values =>
      ∀ value ∈ values, holds value := by
  induction bound with
  | zero => exact .pure (List.forall_mem_nil _)
  | succ bound ih =>
      apply (at?_stays _).bind
      intro found
      split
      · apply shift_stays.bind
        intro _
        apply helement.bind
        intro next hnext
        apply ih.bind
        intro rest hrest
        exact .pure (List.forall_mem_cons.mpr ⟨hnext, hrest⟩)
      · exact .pure (List.forall_mem_nil _)

theorem separatedByCommas_answers {element : Parser α} {holds : α → Prop}
    (helement : Answers tokens endSpan element holds) :
    Answers tokens endSpan (separatedByCommas element) fun values =>
      ∀ value ∈ values, holds value := by
  apply helement.bind
  intro first hfirst
  apply tokensLeft_stays.bind
  intro left
  apply (moreAfterComma_answers helement left).bind
  intro rest hrest
  exact .pure (List.forall_mem_cons.mpr ⟨hfirst, hrest⟩)

/-- Whatever a parser is put together from, it stays among the tokens. -/
theorem stays_combining : Combining (Stays tokens endSpan) where
  pure := pure_stays
  bind hparser hnext := Stays.bind hparser hnext
  peek _ hstate := ⟨hstate, trivial⟩
  shift := shift_stays
  reject := reject_answers
  tooDeep := tooDeep_answers .expression
  spend cost := spend_stays cost .expression
  keepingDepth := Answers.keepingDepth
  budgeted cost _ hparser := Answers.budgeted cost .expression hparser
  commas helement hmore := by
    apply helement.bind
    intro first
    apply tokensLeft_stays.bind
    intro left
    exact (hmore left).bind fun rest => .pure trivial

/-- What a parser is known to read, it reads among the tokens. -/
theorem Stays.reads {parser : Parser α} {derives : List Token → α → Prop}
    (hstays : Stays tokens endSpan parser) (hreads : Reads parser derives) :
    Answers tokens endSpan parser fun value =>
      ∃ phrase, phrase <:+: tokens ∧ derives phrase value := by
  intro state hstate
  have hresult := hstays state hstate
  cases hrun : parser state with
  | ok value after =>
      obtain ⟨phrase, hconsumed, hderives⟩ := hreads hrun
      have hprefix : phrase <+: state.tokens := ⟨after.tokens, hconsumed.tokens_eq.symm⟩
      rw [hrun] at hresult
      exact ⟨hresult.1, phrase, hprefix.isInfix.trans hstate.left.isInfix, hderives⟩
  | error error after =>
      rw [hrun] at hresult
      exact hresult

theorem assignment_stays (levels : Nat)
    (hexpression : Stays tokens endSpan (expressionWithin levels)) :
    Stays tokens endSpan (assignment (expressionWithin levels)) := by
  have hoperands := (stays_combining.operands hexpression).reads
    (binary_reads (unaryWithin_reads (primary_reads (expressionWithin_reads levels)) _))
  apply hoperands.bind
  rintro left ⟨phrase, hphrase, hderives⟩
  apply stays_combining.ifAt .assign
  · split
    · exact shift_stays.bind fun _ => hexpression.bind fun value => .pure trivial
    · exact throw_answers (.invalidTarget hphrase hderives)
  · exact pure_stays left

theorem stays_compositional : Compositional (Stays tokens endSpan) :=
  ⟨stays_combining, assignment_stays⟩

end Parser

end DeclCheck
