import DeclCheck.Proofs.Parser.Keeps

/-!
# Accepting what is asked for, or running out of budget

A parser that is given a phrase of the grammar either reads exactly that phrase,
or the first error that it raises is that the nesting is too deep.  This module
says what that means for a single run and how it carries over from the parts of a
parser to the whole.  A run that has once filed an error may do anything
afterwards: filed errors stay filed, so the first one remains the first.
-/

namespace DeclCheck

/-- The error says that the nesting budget is spent. -/
def SyntaxError.IsTooDeep (error : SyntaxError) : Prop :=
  ∃ construct, error.cause = .tooDeep construct

namespace ParserState

/-- The state with other tokens left to be read. -/
def moveTo (state : ParserState) (tokens : List Token) : ParserState :=
  { state with tokens := tokens }

/-- The state with another depth. -/
def atDepth (state : ParserState) (depth : Nat) : ParserState :=
  { state with depth := depth }

@[simp]
theorem reports_moveTo (state : ParserState) (tokens : List Token) :
    (state.moveTo tokens).reports = state.reports := rfl

@[simp]
theorem reports_atDepth (state : ParserState) (depth : Nat) :
    (state.atDepth depth).reports = state.reports := rfl

@[simp]
theorem tokens_moveTo (state : ParserState) (tokens : List Token) :
    (state.moveTo tokens).tokens = tokens := rfl

@[simp]
theorem moveTo_moveTo (state : ParserState) (first second : List Token) :
    (state.moveTo first).moveTo second = state.moveTo second := rfl

end ParserState

namespace Parser

variable {α β : Type}

/-- The kind of the first of some tokens; the end of the source if there is
none. -/
def nextKind : List Token → TokenKind
  | [] => .eof
  | token :: _ => token.kind

@[simp]
theorem kind_current_moveTo (state : ParserState) (tokens : List Token) :
    (state.moveTo tokens).current.kind = nextKind tokens := by
  cases tokens <;> rfl

/-- Beyond the given errors others have been filed, the first of which is that
the nesting is too deep. -/
def FilesTooDeep (reports : List Report) (after : ParserState) : Prop :=
  ∃ report more, after.reports = reports ++ report :: more ∧
    report.error.IsTooDeep

theorem FilesTooDeep.of_reportsGrow {reports : List Report}
    {middle after : ParserState} (hfiled : FilesTooDeep reports middle)
    (hgrows : ReportsGrow middle after) : FilesTooDeep reports after := by
  obtain ⟨report, more, hreports, hdeep⟩ := hfiled
  obtain ⟨others, hothers⟩ := hgrows
  refine ⟨report, more ++ others, ?_, hdeep⟩
  rw [← hothers, hreports]
  simp

/-- The first error of a run, filed or raised, is that the nesting is too deep.
The errors given are those filed before the run. -/
def Overruns (reports : List Report) :
    EStateM.Result SyntaxError ParserState α → Prop
  | .ok _ after => FilesTooDeep reports after
  | .error error after =>
      (after.reports = reports ∧ error.IsTooDeep) ∨ FilesTooDeep reports after

/-- The parser answers the value and leaves the given tokens, unless the budget
does not suffice. -/
def Accepts (parser : Parser α) (state : ParserState) (value : α)
    (rest : List Token) : Prop :=
  parser state = .ok value (state.moveTo rest) ∨
    Overruns state.reports (parser state)

theorem Overruns.bind {parser : Parser α} {next : α → Parser β}
    {state : ParserState} {reports : List Report}
    (hparser : Overruns reports (parser state))
    (hgrows : ∀ value, Keeps ReportsGrow (next value)) :
    Overruns reports ((parser >>= next) state) := by
  cases hrun : parser state with
  | ok value after =>
      rw [hrun] at hparser
      rw [bind_of_ok next hrun]
      have hmore := hgrows value after
      cases hnext : next value after with
      | ok result last =>
          rw [finalState_of_ok hnext] at hmore
          exact FilesTooDeep.of_reportsGrow hparser hmore
      | error error last =>
          rw [finalState_of_error hnext] at hmore
          exact .inr (FilesTooDeep.of_reportsGrow hparser hmore)
  | error error after =>
      rw [hrun] at hparser
      rwa [bind_of_error next hrun]

theorem Accepts.of_ok {parser : Parser α} {state : ParserState} {value : α}
    {rest : List Token} (hrun : parser state = .ok value (state.moveTo rest)) :
    Accepts parser state value rest :=
  .inl hrun

theorem Accepts.of_tooDeep {parser : Parser α} {state : ParserState} {value : α}
    {rest : List Token} {construct : Construct} {span : Span}
    (hrun : parser state = .error { cause := .tooDeep construct, span := span } state) :
    Accepts parser state value rest := by
  refine .inr ?_
  rw [hrun]
  exact .inl ⟨rfl, construct, rfl⟩

/-- A step that is known to succeed. -/
theorem Accepts.step {parser : Parser α} {next : α → Parser β}
    {state : ParserState} {value : α} {result : β} {middle rest : List Token}
    (hrun : parser state = .ok value (state.moveTo middle))
    (hnext : Accepts (next value) (state.moveTo middle) result rest) :
    Accepts (parser >>= next) state result rest := by
  rw [Accepts, bind_of_ok next hrun]
  exact hnext

theorem Accepts.bind {parser : Parser α} {next : α → Parser β}
    {state : ParserState} {value : α} {result : β} {middle rest : List Token}
    (hparser : Accepts parser state value middle)
    (hgrows : ∀ value, Keeps ReportsGrow (next value))
    (hnext : Accepts (next value) (state.moveTo middle) result rest) :
    Accepts (parser >>= next) state result rest := by
  rcases hparser with hrun | hoverruns
  · exact hnext.step hrun
  · exact .inr (hoverruns.bind hgrows)

theorem Accepts.map {parser : Parser α} (f : α → β) {state : ParserState}
    {value : α} {rest : List Token} (hparser : Accepts parser state value rest) :
    Accepts (f <$> parser) state (f value) rest := by
  rw [map_eq_bind]
  exact hparser.bind (fun value => reportsGrow_recovering.pure _) (.of_ok rfl)

/-! ## The parsers at the bottom -/

theorem shift_moveTo (state : ParserState) (token : Token) (rest : List Token) :
    shift (state.moveTo (token :: rest)) = .ok token (state.moveTo rest) := rfl

theorem symbol_moveTo (state : ParserState) (mark : Symbol) (span : Span)
    (rest : List Token) :
    symbol mark (state.moveTo (⟨.symbol mark, span⟩ :: rest)) =
      .ok span (state.moveTo rest) := by
  rw [symbol_apply, kind_current_moveTo, nextKind, if_pos rfl]
  rfl

theorem identifier_moveTo (state : ParserState) (name : String) (span : Span)
    (rest : List Token) :
    identifier (state.moveTo (⟨.identifier name, span⟩ :: rest)) =
      .ok (name, span) (state.moveTo rest) := by
  rw [identifier_apply, kind_current_moveTo, nextKind]
  rfl

theorem typeName_moveTo (state : ParserState) (name : TypeName) (span : Span)
    (rest : List Token) :
    typeName (state.moveTo (⟨.type name, span⟩ :: rest)) =
      .ok (name, span) (state.moveTo rest) := by
  rw [typeName_apply, kind_current_moveTo, nextKind]
  rfl

theorem Accepts.of_at {mark : Symbol} {whenThere otherwise : Parser α}
    {state : ParserState} {tokens rest : List Token} {value : α}
    (hmark : nextKind tokens = .symbol mark)
    (haccepts : Accepts whenThere (state.moveTo tokens) value rest) :
    Accepts (do if ← at? mark then whenThere else otherwise)
      (state.moveTo tokens) value rest := by
  have hrun := at?_apply mark (state.moveTo tokens)
  rw [kind_current_moveTo, decide_eq_true hmark] at hrun
  exact haccepts.step hrun

theorem Accepts.of_not_at {mark : Symbol} {whenThere otherwise : Parser α}
    {state : ParserState} {tokens rest : List Token} {value : α}
    (hmark : nextKind tokens ≠ .symbol mark)
    (haccepts : Accepts otherwise (state.moveTo tokens) value rest) :
    Accepts (do if ← at? mark then whenThere else otherwise)
      (state.moveTo tokens) value rest := by
  have hrun := at?_apply mark (state.moveTo tokens)
  rw [kind_current_moveTo, decide_eq_false hmark] at hrun
  exact haccepts.step hrun

/-! ## Depth -/

theorem Accepts.budgeted {cost : Nat} (construct : Construct)
    {parser : Parser α} {state : ParserState} {value : α} {rest : List Token}
    (hparser : Accepts parser (state.atDepth (state.depth + cost)) value rest) :
    Accepts (budgeted cost construct parser) state value rest := by
  by_cases hdeep : state.depth + cost > nestingBudget
  · exact .of_tooDeep (budgeted_of_gt construct parser hdeep)
  · have hleft := Nat.le_of_not_gt hdeep
    rcases hparser with hrun | hoverruns
    · exact .of_ok (budgeted_of_ok construct hleft hrun)
    · refine .inr ?_
      cases hrun : parser (state.atDepth (state.depth + cost)) with
      | ok other after =>
          rw [hrun] at hoverruns
          rw [budgeted_of_ok construct hleft hrun]
          exact hoverruns
      | error error after =>
          rw [hrun] at hoverruns
          rw [budgeted_of_error construct hleft hrun]
          exact hoverruns

theorem Overruns.keepingDepth {parser : Parser α} {state : ParserState}
    (hparser : Overruns state.reports (parser state)) :
    Overruns state.reports (keepingDepth parser state) := by
  rw [Parser.keepingDepth]
  cases hrun : parser state with
  | ok value after =>
      rw [hrun] at hparser
      exact hparser
  | error error after =>
      rw [hrun] at hparser
      exact hparser

/-! ## Lists -/

/-- The element is accepted wherever a comma or a closing parenthesis follows
it. -/
def ElementAccepted (element : Parser α) (tokens : List Token) (value : α) :
    Prop :=
  ∀ (state : ParserState) (others : List Token),
    nextKind others = .symbol .comma ∨ nextKind others = .symbol .closeParen →
    Accepts element (state.moveTo (tokens ++ others)) value others

/-- Elements that are accepted, with commas between them. -/
inductive CommaSeparated (element : Parser α) : List Token → List α → Prop
  | last {tokens : List Token} {value : α}
      (hvalue : ElementAccepted element tokens value) :
      CommaSeparated element tokens [value]
  | more (comma : Span) {tokens rest : List Token} {value : α} {values : List α}
      (hvalue : ElementAccepted element tokens value)
      (hrest : CommaSeparated element rest values) :
      CommaSeparated element (tokens ++ ⟨.symbol .comma, comma⟩ :: rest)
        (value :: values)

section Lists

variable {element : Parser α} {others : List Token}

theorem moreAfterComma_nil (hclose : nextKind others = .symbol .closeParen)
    (bound : Nat) (state : ParserState) :
    Accepts (moreAfterComma element bound) (state.moveTo others) [] others := by
  cases bound with
  | zero => exact .of_ok rfl
  | succ bound => exact .of_not_at (by simp [hclose]) (.of_ok rfl)

/-- One element is read in each round, and the comma before it makes up for the
round. -/
theorem moreAfterComma_accepts (hgrows : Keeps ReportsGrow element)
    {tokens : List Token} {values : List α}
    (helements : CommaSeparated element tokens values)
    (hclose : nextKind others = .symbol .closeParen) :
    ∀ {bound : Nat}, tokens.length < bound →
      ∀ (comma : Span) (state : ParserState),
        Accepts (moreAfterComma element bound)
          (state.moveTo (⟨.symbol .comma, comma⟩ :: (tokens ++ others))) values
          others := by
  have hround : ∀ bound value,
      Keeps ReportsGrow (do
        let rest ← moreAfterComma element bound
        return value :: rest) := fun bound value =>
    reportsGrow_recovering.bind
      (reportsGrow_recovering.moreAfterComma hgrows bound)
      fun rest => reportsGrow_recovering.pure _
  induction helements with
  | last hvalue =>
      intro bound hbound comma state
      cases bound with
      | zero => exact absurd hbound (Nat.not_lt_zero _)
      | succ bound =>
          refine .of_at rfl (.step (shift_moveTo state _ _) ?_)
          refine Accepts.bind (hvalue state others (.inr hclose)) (hround bound) ?_
          exact Accepts.bind (moreAfterComma_nil hclose bound state)
            (fun rest => reportsGrow_recovering.pure _) (.of_ok rfl)
  | more next hvalue hrest ih =>
      intro bound hbound comma state
      cases bound with
      | zero => exact absurd hbound (Nat.not_lt_zero _)
      | succ bound =>
          rw [List.length_append, List.length_cons] at hbound
          rw [List.append_assoc, List.cons_append]
          refine .of_at rfl (.step (shift_moveTo state _ _) ?_)
          refine Accepts.bind (hvalue state _ (.inl rfl)) (hround bound) ?_
          exact Accepts.bind (ih (by omega) next state)
            (fun rest => reportsGrow_recovering.pure _) (.of_ok rfl)

theorem separatedByCommas_accepts (hgrows : Keeps ReportsGrow element)
    {tokens : List Token} {values : List α}
    (helements : CommaSeparated element tokens values)
    (hclose : nextKind others = .symbol .closeParen) (state : ParserState) :
    Accepts (separatedByCommas element) (state.moveTo (tokens ++ others)) values
      others := by
  have hafter : ∀ value,
      Keeps ReportsGrow (do
        let rest ← moreAfterComma element (← tokensLeft)
        return value :: rest) := fun value =>
    reportsGrow_recovering.bind reportsGrow_recoverClosed.refl fun left =>
      reportsGrow_recovering.bind
        (reportsGrow_recovering.moreAfterComma hgrows left)
        fun rest => reportsGrow_recovering.pure _
  cases helements with
  | last hvalue =>
      refine Accepts.bind (hvalue state others (.inr hclose)) hafter ?_
      refine .step (tokensLeft_apply _) ?_
      exact Accepts.bind (moreAfterComma_nil hclose _ state)
        (fun rest => reportsGrow_recovering.pure _) (.of_ok rfl)
  | more comma hvalue hrest =>
      rw [List.append_assoc, List.cons_append]
      refine Accepts.bind (hvalue state _ (.inl rfl)) hafter ?_
      refine .step (tokensLeft_apply _) ?_
      refine Accepts.bind (moreAfterComma_accepts hgrows hrest hclose ?_ comma state)
        (fun rest => reportsGrow_recovering.pure _) (.of_ok rfl)
      rw [ParserState.tokens_moveTo, List.length_cons, List.length_append]
      omega

end Lists

end Parser

end DeclCheck
