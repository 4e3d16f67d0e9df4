import DeclCheck.Proofs.Parser.Induction

/-!
# What every run keeps

A relation between states that survives taking the next token, a change of the
depth and the filing of an error holds between the state before and the state
after any run, successful or not.  In particular an error that was filed stays filed,
and reading an expression files none.
-/

namespace DeclCheck.Parser

variable {α β : Type}

/-- The state in which a run ends, whether it succeeds or fails. -/
def finalState (parser : Parser α) (state : ParserState) : ParserState :=
  match parser state with
  | .ok _ after => after
  | .error _ after => after

theorem finalState_of_ok {parser : Parser α} {state after : ParserState}
    {value : α} (hrun : parser state = .ok value after) :
    finalState parser state = after := by
  simp only [finalState, hrun]

theorem finalState_of_error {parser : Parser α} {state after : ParserState}
    {error : SyntaxError} (hrun : parser state = .error error after) :
    finalState parser state = after := by
  simp only [finalState, hrun]

theorem depth_finalState_budgeted (cost : Nat) (construct : Construct) (parser : Parser α)
    (state : ParserState) :
    (finalState (budgeted cost construct parser) state).depth = state.depth := by
  rw [finalState, budgeted_apply]
  cases (spend cost construct >>= fun _ => parser) state with
  | ok value after => rfl
  | error error after => rfl

/-- Relations between an earlier and a later state that may be followed through
several runs. -/
structure RunClosed (kept : ParserState → ParserState → Prop) : Prop where
  refl : ∀ state, kept state state
  trans : ∀ {first second third}, kept first second → kept second third →
    kept first third

/-- Relations that survive what happens to the depth: it grows within the budget, and it
goes back to what it was at the start. -/
structure DepthClosed (kept : ParserState → ParserState → Prop) : Prop
    extends RunClosed kept where
  deeper : ∀ state cost, state.depth + cost ≤ nestingBudget →
    kept state { state with depth := state.depth + cost }
  back : ∀ {state after}, kept state after → kept state { after with depth := state.depth }

/-- Relations that survive what a parser does when it reads. -/
structure ReadClosed (kept : ParserState → ParserState → Prop) : Prop
    extends DepthClosed kept where
  shift : ∀ state, kept state { state with tokens := state.tokens.tail }

/-- Relations that survive the filing of an error as well.  An error is filed where the
parser stands. -/
structure RecoverClosed (kept : ParserState → ParserState → Prop) : Prop
    extends ReadClosed kept where
  file : ∀ state report, report.raisedAt = state.current.span →
    kept state { state with reports := state.reports ++ [report] }

/-- The relation holds between the two ends of every run. -/
def Keeps (kept : ParserState → ParserState → Prop) (parser : Parser α) : Prop :=
  ∀ state, kept state (finalState parser state)

namespace RunClosed

variable {kept : ParserState → ParserState → Prop} (hkept : RunClosed kept)
include hkept

theorem pure (value : α) : Keeps kept (pure value : Parser α) :=
  hkept.refl

theorem bind_run {state : ParserState} {parser : Parser α} {next : α → Parser β}
    (hfirst : kept state (finalState parser state))
    (hnext : ∀ value, Keeps kept (next value)) :
    kept state (finalState (parser >>= next) state) := by
  cases hrun : parser state with
  | ok value after =>
      rw [finalState_of_ok hrun] at hfirst
      have hsecond := hnext value after
      rw [finalState, bind_of_ok next hrun]
      exact hkept.trans hfirst hsecond
  | error error after =>
      rw [finalState_of_error hrun] at hfirst
      rwa [finalState_of_error (bind_of_error next hrun)]

theorem bind {parser : Parser α} {next : α → Parser β}
    (hparser : Keeps kept parser) (hnext : ∀ value, Keeps kept (next value)) :
    Keeps kept (parser >>= next) :=
  fun state => hkept.bind_run (hparser state) hnext

theorem commas {element : Parser α} (helement : Keeps kept element)
    (hmore : ∀ bound, Keeps kept (moreAfterComma element bound)) :
    Keeps kept (separatedByCommas element) := by
  refine hkept.bind helement fun first => ?_
  refine hkept.bind hkept.refl fun left => ?_
  exact hkept.bind (hmore left) fun rest => hkept.pure _

end RunClosed

namespace DepthClosed

variable {kept : ParserState → ParserState → Prop} (hkept : DepthClosed kept)
include hkept

theorem spend (cost : Nat) (construct : Construct) :
    Keeps kept (spend cost construct) := by
  intro state
  by_cases hdeep : state.depth + cost > nestingBudget
  · rw [finalState_of_error (spend_of_gt construct hdeep)]
    exact hkept.refl state
  · rw [finalState_of_ok (spend_of_le construct (Nat.le_of_not_gt hdeep))]
    exact hkept.deeper state cost (Nat.le_of_not_gt hdeep)

theorem keepingDepth_run {state : ParserState} {parser : Parser α}
    (hrun : kept state (finalState parser state)) :
    kept state (finalState (keepingDepth parser) state) := by
  cases hresult : parser state with
  | ok value after =>
      rw [finalState_of_ok hresult] at hrun
      rw [finalState, Parser.keepingDepth, hresult]
      exact hkept.back hrun
  | error error after =>
      rw [finalState_of_error hresult] at hrun
      rw [finalState, Parser.keepingDepth, hresult]
      exact hrun

theorem keepingDepth {parser : Parser α} (hparser : Keeps kept parser) :
    Keeps kept (keepingDepth parser) :=
  fun state => hkept.keepingDepth_run (hparser state)

theorem budgeted_run (cost : Nat) (construct : Construct) {state : ParserState}
    {parser : Parser α} (hrun : ∀ after, Parser.spend cost construct state = .ok () after →
      kept after (finalState parser after)) :
    kept state (finalState (budgeted cost construct parser) state) := by
  by_cases hdeep : state.depth + cost > nestingBudget
  · rw [finalState_of_error (budgeted_of_gt construct parser hdeep)]
    exact hkept.refl state
  · have hspend := spend_of_le construct (Nat.le_of_not_gt hdeep)
    have hinner := hkept.trans (hkept.deeper state cost (Nat.le_of_not_gt hdeep))
      (hrun _ hspend)
    rw [finalState, budgeted_apply, bind_of_ok _ hspend]
    cases hresult : parser { state with depth := state.depth + cost } with
    | ok value after =>
        rw [finalState_of_ok hresult] at hinner
        exact hkept.back hinner
    | error error after =>
        rw [finalState_of_error hresult] at hinner
        exact hkept.back hinner

theorem budgeted (cost : Nat) (construct : Construct) {parser : Parser α}
    (hparser : Keeps kept parser) :
    Keeps kept (budgeted cost construct parser) :=
  fun _ => hkept.budgeted_run cost construct fun after _ => hparser after

end DepthClosed

namespace ReadClosed

variable {kept : ParserState → ParserState → Prop} (hkept : ReadClosed kept)
include hkept

/-- Leaving out tokens is taking them, one after the other. -/
theorem skip (state : ParserState) {left : List Token} (hleft : left <:+ state.tokens) :
    kept state { state with tokens := left } := by
  obtain ⟨skipped, htokens⟩ := hleft
  induction skipped generalizing state with
  | nil =>
      rw [List.nil_append] at htokens
      rw [htokens]
      exact hkept.refl state
  | cons token skipped ih =>
      have htail : skipped ++ left = state.tokens.tail := by rw [← htokens]; rfl
      exact hkept.trans (hkept.shift state) (ih { state with tokens := state.tokens.tail } htail)

theorem combining : Combining (Keeps kept) where
  pure := hkept.pure
  bind := hkept.bind
  peek := hkept.refl
  shift := hkept.shift
  reject _ := hkept.refl
  tooDeep := hkept.refl
  spend cost := hkept.spend cost .expression
  keepingDepth := hkept.keepingDepth
  budgeted cost _ hparser := hkept.budgeted cost .expression hparser
  commas := hkept.commas

theorem compositional : Compositional (Keeps kept) :=
  hkept.combining.compositional fun _ => hkept.refl

end ReadClosed

namespace RecoverClosed

variable {kept : ParserState → ParserState → Prop} (hkept : RecoverClosed kept)
include hkept

/-- Recovery files an error and leaves out tokens. -/
theorem resume (state : ParserState) {report : Report}
    (hreport : report.raisedAt = state.current.span) :
    kept state { state with
      tokens := resume state.tokens
      reports := state.reports ++ [report] } :=
  hkept.trans (hkept.file state report hreport) (hkept.skip _ (resume_suffix state.tokens))

theorem recover_run {state : ParserState} {parser : Parser α}
    (hrun : kept state (finalState parser state)) : kept state (recover parser state).2 := by
  cases hresult : parser state with
  | ok value after =>
      rw [finalState_of_ok hresult] at hrun
      rwa [Parser.recover, hresult]
  | error error after =>
      rw [finalState_of_error hresult] at hrun
      rw [Parser.recover, hresult]
      exact hkept.trans hrun (hkept.resume after rfl)

theorem recover {parser : Parser α} (hparser : Keeps kept parser)
    (state : ParserState) : kept state (recover parser state).2 :=
  hkept.recover_run (hparser state)

theorem statementsWithin {statement : Parser Stmt}
    (hstatement : Keeps kept statement) (bound : Nat) :
    ∀ state, kept state (statementsWithin statement bound state).2 := by
  induction bound with
  | zero => exact hkept.refl
  | succ bound ih =>
      intro state
      rw [Parser.statementsWithin]
      split
      · exact hkept.refl state
      · exact hkept.trans (hkept.recover hstatement state) (ih _)

theorem statements {statement : Parser Stmt}
    (hstatement : Keeps kept statement) : Keeps kept (statements statement) :=
  fun state => hkept.statementsWithin hstatement _ state

theorem recovering : Recovering (Keeps kept) :=
  hkept.compositional.recovering hkept.refl (hkept.budgeted constructCost .block) fun _ =>
    hkept.statements

theorem itemStep (state : ParserState) : kept state (itemStep state).2 := by
  have hrecover := hkept.recover hkept.recovering.item state
  rw [Parser.itemStep]
  split
  · rename_i hread
    rwa [hread] at hrecover
  · rename_i after hread
    rw [hread] at hrecover
    exact hkept.trans hrecover (hkept.skip after (dropCloseBrace_suffix after.tokens))

theorem itemsWithin (bound : Nat) :
    ∀ state, kept state (itemsWithin bound state).2 := by
  induction bound with
  | zero => exact hkept.refl
  | succ bound ih =>
      intro state
      rw [Parser.itemsWithin]
      split
      · exact hkept.refl state
      · exact hkept.trans (hkept.itemStep state) (ih _)

end RecoverClosed

theorem Keeps.of_ok {kept : ParserState → ParserState → Prop} {parser : Parser α}
    (hkeeps : Keeps kept parser) {state after : ParserState} {value : α}
    (hrun : parser state = .ok value after) : kept state after := by
  have hkept := hkeeps state
  rwa [finalState_of_ok hrun] at hkept

/-- Filed errors stay filed, in order. -/
def ReportsGrow (before after : ParserState) : Prop :=
  before.reports <+: after.reports

theorem reportsGrow_recoverClosed : RecoverClosed ReportsGrow where
  refl _ := List.prefix_refl _
  trans hfirst hsecond := List.IsPrefix.trans hfirst hsecond
  shift _ := List.prefix_refl _
  deeper _ _ _ := List.prefix_refl _
  back hafter := hafter
  file _ report _ := List.prefix_append _ [report]

theorem reportsGrow_recovering : Recovering (Keeps ReportsGrow) :=
  reportsGrow_recoverClosed.recovering

end DeclCheck.Parser
