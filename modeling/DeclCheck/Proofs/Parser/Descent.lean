import DeclCheck.Proofs.Parser.Steps
import DeclCheck.Proofs.Token.Order

/-!
# Every call goes down

A procedure calls another one either after it has taken a token, or for a construct that
is tighter than its own.  So no chain of calls goes on for ever, and what the steps of the
procedures say determines their answers.
-/

namespace DeclCheck.Parser

namespace Procedure

/-- How loose the construct is that a procedure reads. -/
def looseness : Procedure → Nat
  | items => 24
  | item => 23
  | declaration => 22
  | functionAfter _ _ _ => 21
  | statements => 20
  | statement => 19
  | conditional => 18
  | whileLoop => 18
  | block => 17
  | braced => 16
  | leave => 15
  | variableDecl => 15
  | variableAfter _ _ _ => 14
  | condition => 13
  | evaluation => 13
  | arguments => 13
  | expression => 12
  | assignment => 11
  | chain level => 10 - level.rank
  | chainAfter _ _ => 4
  | unary => 3
  | primary => 2
  | reference _ => 1
  | parenthesized => 1
  | parameter => 0
  | moreParameters => 0
  | moreArguments => 0

/-- A call of a procedure in a state is below another one if fewer tokens are left, or as
many and the construct is tighter. -/
def Below : Procedure × ParserState → Procedure × ParserState → Prop :=
  InvImage (Prod.Lex (· < ·) (· < ·)) fun call => (call.2.tokens.length, call.1.looseness)

theorem below_wellFounded : WellFounded Below :=
  InvImage.wf _ (Prod.lex Nat.lt_wfRel Nat.lt_wfRel).wf

theorem below_of_le {procedure caller : Procedure} {entry state : ParserState}
    (hle : entry.tokens.length ≤ state.tokens.length)
    (hdown : entry.tokens.length < state.tokens.length ∨
      procedure.looseness < caller.looseness) :
    Below (procedure, entry) (caller, state) := by
  refine Prod.lex_def.mpr ?_
  dsimp only
  omega

end Procedure

namespace Script

open Procedure (Answer parserWithin)

variable {α β : Type} {answers : ∀ procedure : Procedure, Parser procedure.Answer}
variable {bound : Nat} {state : ParserState}

/-- Every call is made after a token was taken, or of a procedure whose construct is
tighter than the bound. -/
def Descends (answers : ∀ procedure : Procedure, Parser procedure.Answer) (bound : Nat)
    (script : Script Answer α) (state : ParserState) : Prop :=
  ∀ procedure entry, script.Calls answers state procedure entry →
    entry.tokens.length < state.tokens.length ∨ procedure.looseness < bound

theorem descends_call {procedure : Procedure} (htighter : procedure.looseness < bound) :
    Descends answers bound (call procedure) state := by
  rintro _ _ ⟨rfl, -⟩
  exact .inr htighter

section Bind

variable (hshrinks : ∀ procedure, Keeps Shrinks (answers procedure))
variable {first : Script Answer α} {next : α → Script Answer β}
include hshrinks

theorem Descends.bind (hfirst : Descends answers bound first state)
    (hnext : ∀ value after, first.run answers state = .ok value after →
      Descends answers bound (next value) after) :
    Descends answers bound (first >>= next) state := by
  rintro procedure entry (hcall | ⟨value, after, hrun, hcall⟩)
  · exact hfirst procedure entry hcall
  · have hle := ((shrinks_recoverClosed.run first hshrinks).of_ok hrun).length_le
    have hdown := hnext value after hrun procedure entry hcall
    omega

/-- Once a token is taken, nothing needs to be known of what follows. -/
theorem Descends.bind_of_lt (hfirst : Descends answers bound first state)
    (hlt : ∀ value after, first.run answers state = .ok value after →
      after.tokens.length < state.tokens.length) :
    Descends answers bound (first >>= next) state := by
  rintro procedure entry (hcall | ⟨value, after, hrun, hcall⟩)
  · exact hfirst procedure entry hcall
  · have hafter := hlt value after hrun
    have hentry : Shrinks after entry :=
      shrinks_recoverClosed.visits (next value) (fun procedure entry _ => hshrinks procedure entry)
        ((next value).visits_of_calls hcall)
    have hle := hentry.length_le
    omega

/-- A token that is there is taken. -/
theorem descends_shift {next : Token → Script Answer β} (hne : state.tokens ≠ []) :
    Descends answers bound (shift >>= next) state := by
  refine Descends.bind_of_lt hshrinks (fun _ _ => False.elim) fun token after hshift => ?_
  cases hshift
  rw [List.length_tail]
  exact Nat.sub_lt (List.length_pos_iff.mpr hne) Nat.one_pos

end Bind

theorem descends_pure (value : α) :
    Descends answers bound (pure value) state :=
  fun _ _ => False.elim

theorem descends_budgeted (cost : Nat) (construct : Construct) {body : Script Answer α}
    (hbody : ∀ after, Descends answers bound body after) :
    Descends answers bound (budgeted cost construct body) state := by
  rintro procedure entry ⟨after, hspend, hcall⟩
  obtain ⟨-, rfl⟩ := spend_eq_ok hspend
  exact hbody { state with depth := state.depth + cost } procedure entry hcall

theorem descends_peek {next : Token → Script Answer β}
    (hnext : Descends answers bound (next state.current) state) :
    Descends answers bound (peek >>= next) state :=
  fun procedure entry hcall => hnext procedure entry (calls_peek_bind.mp hcall)

theorem ne_nil_of_current {kind : TokenKind} (hkind : state.current.kind = kind)
    (heof : kind ≠ .eof) : state.tokens ≠ [] := by
  obtain ⟨rest, htokens⟩ := exists_of_current_ne_eof (hkind ▸ heof)
  rw [htokens]
  exact List.cons_ne_nil _ _

/-- Where the symbol comes next, there is a token. -/
theorem descends_ifAt (mark : Symbol) {there otherwise : Script Answer α}
    (hthere : state.tokens ≠ [] → Descends answers bound there state)
    (hotherwise : Descends answers bound otherwise state) :
    Descends answers bound (do if ← at? mark then there else otherwise) state := by
  rintro procedure entry ((hcall | ⟨_, _, _, hcall⟩) | ⟨found, after, hfound, hcall⟩)
  · exact hcall.elim
  · exact hcall.elim
  · cases hfound
    by_cases hmark : state.current.kind = .symbol mark
    · have hne := ne_nil_of_current hmark (by simp)
      rw [hmark, decide_eq_true rfl] at hcall
      exact hthere hne procedure entry hcall
    · rw [decide_eq_false hmark] at hcall
      exact hotherwise procedure entry hcall

theorem descends_reject (wanted : Expectation) :
    Descends answers bound (reject wanted : Script Answer α) state :=
  descends_peek fun _ _ => False.elim

section Basic

variable (hshrinks : ∀ procedure, Keeps Shrinks (answers procedure))
include hshrinks

theorem descends_symbol (mark : Symbol) : Descends answers bound (symbol mark) state :=
  descends_ifAt mark (descends_shift hshrinks) (descends_reject _)

theorem descends_typeName : Descends answers bound typeName state := by
  refine descends_peek ?_
  split
  · rename_i hkind
    exact descends_shift hshrinks (ne_nil_of_current hkind (by simp))
  · exact descends_reject _

theorem descends_afterComma {element : Script Answer α} {more : Script Answer (List α)} :
    Descends answers bound (afterComma element more) state :=
  descends_ifAt .comma (descends_shift hshrinks) (descends_pure _)

/-- What follows a symbol is behind a token. -/
theorem descends_symbol_bind (mark : Symbol) {next : Span → Script Answer β} :
    Descends answers bound (symbol mark >>= next) state := by
  refine Descends.bind_of_lt hshrinks (descends_symbol hshrinks mark) fun span after hsymbol => ?_
  rw [run_symbol] at hsymbol
  exact symbol_advances mark hsymbol

theorem descends_typeName_bind {next : TypeName × Span → Script Answer β} :
    Descends answers bound (typeName >>= next) state := by
  refine Descends.bind_of_lt hshrinks (descends_typeName hshrinks) fun type after htype => ?_
  rw [run_typeName] at htype
  exact typeName_advances htype

end Basic

end Script

namespace Procedure

open Script

/-! ### One procedure after the other -/

section Steps

variable {answers : ∀ procedure : Procedure, Parser procedure.Answer} {state : ParserState}

theorem operand_descends (level : Precedence) :
    Descends answers (chain level).looseness (operand level) state := by
  cases level <;> exact descends_call (by decide)

variable (hshrinks : ∀ procedure, Keeps Shrinks (answers procedure))
include hshrinks

/-- Before a round of items is over, nothing but an item is called. -/
theorem itemStep_descends : Descends answers items.looseness Script.itemStep state := by
  have hitem : Descends answers items.looseness (.recover (invoke item)) state :=
    descends_call (by decide)
  refine .bind hshrinks hitem fun read after _ => ?_
  cases read with
  | some read => exact descends_pure _
  | none => exact descends_ifAt .closeBrace (descends_shift hshrinks) (descends_pure _)

theorem item_descends : Descends answers item.looseness Script.item state := by
  refine descends_peek ?_
  split
  · exact descends_call (by decide)
  · exact .bind hshrinks (descends_call (by decide)) fun _ _ _ => descends_pure _

theorem statement_descends : Descends answers statement.looseness Script.statement state := by
  refine descends_peek ?_
  split
  · exact .bind hshrinks (descends_call (by decide)) fun _ _ _ => descends_pure _
  · exact descends_call (by decide)
  · exact descends_call (by decide)
  · exact descends_call (by decide)
  · exact .bind hshrinks (descends_call (by decide)) fun _ _ _ => descends_pure _
  · exact .bind hshrinks (descends_call (by decide)) fun _ _ _ => descends_pure _

theorem conditional_descends :
    Descends answers conditional.looseness Script.conditional state := by
  refine .bind hshrinks (fun _ _ => False.elim) fun start _ _ => ?_
  refine .bind hshrinks (descends_call (by decide)) fun test _ _ => ?_
  refine .bind hshrinks (descends_call (by decide)) fun onTrue _ _ => descends_peek ?_
  split
  · refine .bind hshrinks (fun _ _ => False.elim) fun _ _ _ => ?_
    exact .bind hshrinks (descends_call (by decide)) fun _ _ _ => descends_pure _
  · exact descends_pure _

theorem whileLoop_descends : Descends answers whileLoop.looseness Script.whileLoop state := by
  refine .bind hshrinks (fun _ _ => False.elim) fun start _ _ => ?_
  refine .bind hshrinks (descends_call (by decide)) fun test _ _ => ?_
  exact .bind hshrinks (descends_call (by decide)) fun _ _ _ => descends_pure _

theorem leave_descends : Descends answers leave.looseness Script.leave state := by
  refine .bind hshrinks (fun _ _ => False.elim) fun start _ _ => ?_
  refine descends_ifAt .semicolon (fun _ => ?_) ?_
  · exact .bind hshrinks (descends_pure _) fun _ _ _ => descends_symbol_bind hshrinks _
  · refine .bind hshrinks ?_ fun _ _ _ => descends_symbol_bind hshrinks _
    exact .bind hshrinks (descends_call (by decide)) fun _ _ _ => descends_pure _

theorem variableAfter_descends (type : TypeName) (start : Span) (name : String) :
    Descends answers (variableAfter type start name).looseness
      (Script.variableAfter type start name) state := by
  refine descends_ifAt .assign (descends_shift hshrinks) ?_
  exact .bind hshrinks (descends_pure _) fun _ _ _ => descends_symbol_bind hshrinks _

theorem evaluation_descends : Descends answers evaluation.looseness Script.evaluation state :=
  .bind hshrinks (descends_call (by decide)) fun _ _ _ => descends_symbol_bind hshrinks _

theorem arguments_descends : Descends answers arguments.looseness Script.arguments state := by
  refine descends_ifAt .closeParen (fun _ => ?_) ?_
  · exact .bind hshrinks (descends_pure _) fun _ _ _ => descends_symbol_bind hshrinks _
  · refine .bind hshrinks ?_ fun _ _ _ => descends_symbol_bind hshrinks _
    refine .bind hshrinks (descends_call (by decide)) fun _ _ _ => ?_
    exact .bind hshrinks (descends_call (by decide)) fun _ _ _ => descends_pure _

/-- The expression on the right of an assignment is looser, but the sign before it is a
token. -/
theorem assignment_descends : Descends answers assignment.looseness Script.assignment state := by
  refine .bind hshrinks (descends_call (by decide)) fun left _ _ => ?_
  refine descends_ifAt .assign (fun hne => ?_) (descends_pure _)
  split
  · exact descends_shift hshrinks hne
  · exact fun _ _ => False.elim

theorem chain_descends (level : Precedence) :
    Descends answers (chain level).looseness (Script.chain level) state := by
  have htighter : 4 < (chain level).looseness := by cases level <;> decide
  exact Descends.bind hshrinks (operand_descends level) fun _ _ _ => descends_call htighter

theorem chainAfter_descends (level : Precedence) (left : Expr) :
    Descends answers (chainAfter level left).looseness (Script.chainAfter level left) state := by
  refine descends_peek ?_
  split
  · exact descends_pure _
  · rename_i op hop
    have hkind := (operator?_eq_some_iff.mp hop).1
    exact descends_shift hshrinks (ne_nil_of_current hkind (by simp))

theorem unary_descends : Descends answers unary.looseness Script.unary state := by
  refine descends_peek ?_
  split
  · exact descends_call (by decide)
  · rename_i op hop
    have hkind := (symbol?_bind_eq_some_iff unaryOp_ofSymbol?_eq_some_iff).mp hop
    exact descends_shift hshrinks (ne_nil_of_current hkind (by simp))

theorem primary_descends : Descends answers primary.looseness Script.primary state := by
  have hliteral : ∀ read : Token → Expr,
      Descends answers primary.looseness (do return read (← Script.shift)) state :=
    fun read => .bind hshrinks (fun _ _ => False.elim) fun _ _ _ => descends_pure _
  refine descends_peek ?_
  split
  · exact hliteral _
  · exact hliteral _
  · exact hliteral _
  · exact hliteral _
  · exact hliteral _
  · exact descends_call (by simp only [looseness]; decide)
  · exact descends_call (by decide)
  · exact descends_reject _

/-- The first token may be missing, the parenthesis before the arguments is not. -/
theorem reference_descends (name : String) :
    Descends answers (reference name).looseness (Script.reference name) state := by
  refine .bind hshrinks (fun _ _ => False.elim) fun start _ _ => ?_
  exact descends_ifAt .openParen (descends_shift hshrinks) (descends_pure _)

end Steps

/-- A round of items takes a token. -/
theorem items_descends (levels blocks : Nat) (state : ParserState) :
    Descends (parserWithin levels blocks) items.looseness Script.items state := by
  have hshrinks := shrinks_recoverClosed.parserWithin levels blocks
  refine descends_peek ?_
  split
  · exact descends_pure _
  · rename_i heof
    refine .bind_of_lt hshrinks (itemStep_descends hshrinks) fun read after hrun => ?_
    rw [run_itemStep] at hrun
    cases hrun
    exact itemStep_advances heof

theorem statements_descends (levels blocks : Nat) (state : ParserState) :
    Descends (parserWithin levels blocks) statements.looseness Script.statements state := by
  have hshrinks := shrinks_recoverClosed.parserWithin levels blocks
  have hround : Descends (parserWithin levels blocks) statements.looseness
      (.recover (invoke statement)) state := descends_call (by decide)
  refine descends_peek ?_
  split
  · exact descends_pure _
  · rename_i hend
    refine .bind_of_lt hshrinks hround fun read after hrun => ?_
    cases hrun
    exact recover_advances (hshrinks statement) (statement_advances (hshrinks block)
      (blockWithin_advances blocks)) (eq_false_of_ne_true hend)

/-- Every procedure goes down with each call. -/
theorem steps_descends (levels blocks : Nat) (procedure : Procedure) (state : ParserState) :
    Descends (parserWithin levels blocks) procedure.looseness procedure.steps state := by
  have hshrinks := shrinks_recoverClosed.parserWithin levels blocks
  cases procedure with
  | items => exact items_descends levels blocks state
  | item => exact item_descends hshrinks
  | declaration => exact descends_typeName_bind hshrinks
  | functionAfter type start name => exact descends_symbol_bind hshrinks _
  | parameter => exact descends_typeName_bind hshrinks
  | moreParameters => exact descends_afterComma hshrinks
  | statements => exact statements_descends levels blocks state
  | statement => exact statement_descends hshrinks
  | conditional => exact conditional_descends hshrinks
  | whileLoop => exact whileLoop_descends hshrinks
  | block => exact descends_budgeted _ _ fun _ => descends_call (by decide)
  | braced => exact descends_symbol_bind hshrinks _
  | leave => exact leave_descends hshrinks
  | variableDecl => exact descends_typeName_bind hshrinks
  | variableAfter type start name => exact variableAfter_descends hshrinks type start name
  | condition => exact descends_symbol_bind hshrinks _
  | evaluation => exact evaluation_descends hshrinks
  | arguments => exact arguments_descends hshrinks
  | moreArguments => exact descends_afterComma hshrinks
  | expression => exact descends_budgeted _ _ fun _ => descends_call (by decide)
  | assignment => exact assignment_descends hshrinks
  | chain level => exact chain_descends hshrinks level
  | chainAfter level left => exact chainAfter_descends hshrinks level left
  | unary => exact unary_descends hshrinks
  | primary => exact primary_descends hshrinks
  | reference name => exact reference_descends hshrinks name
  | parenthesized => exact descends_symbol_bind hshrinks _

theorem shrinks_of_calls {levels blocks : Nat} {caller procedure : Procedure}
    {state entry : ParserState}
    (hcall : caller.steps.Calls (parserWithin levels blocks) state procedure entry) :
    Shrinks state entry :=
  shrinks_recoverClosed.visits caller.steps
    (fun called entered _ => shrinks_recoverClosed.parserWithin levels blocks called entered)
    (caller.steps.visits_of_calls hcall)

theorem below_of_calls {levels blocks : Nat} {caller procedure : Procedure}
    {state entry : ParserState}
    (hcall : caller.steps.Calls (parserWithin levels blocks) state procedure entry) :
    Below (procedure, entry) (caller, state) :=
  below_of_le (shrinks_of_calls hcall).length_le
    (steps_descends levels blocks caller state procedure entry hcall)

/-- What holds of a call if it holds of all calls that it makes holds of every call. -/
theorem call_induction (levels blocks : Nat) {motive : Procedure → ParserState → Prop}
    (hcalls : ∀ caller state, (∀ procedure entry,
        caller.steps.Calls (parserWithin levels blocks) state procedure entry →
          motive procedure entry) → motive caller state)
    (procedure : Procedure) (state : ParserState) : motive procedure state := by
  suffices hall : ∀ call : Procedure × ParserState, motive call.1 call.2 from
    hall (procedure, state)
  intro call
  induction call using below_wellFounded.induction with
  | h call ih =>
      exact hcalls call.1 call.2 fun procedure entry hcall =>
        ih (procedure, entry) (below_of_calls hcall)

/-- Answers from a depth on are the same if they are so for some procedures, and the
others take their steps. -/
theorem parserWithin_eq_of_depth (levels blocks : Nat)
    (answers : ∀ procedure : Procedure, Parser procedure.Answer) {depth : Nat}
    (hprocedure : ∀ procedure : Procedure,
      (∀ state : ParserState, depth ≤ state.depth →
        procedure.parserWithin levels blocks state = answers procedure state) ∨
      (procedure.steps.run (parserWithin levels blocks) =
          procedure.parserWithin levels blocks ∧
        procedure.steps.run answers = answers procedure))
    (procedure : Procedure) {state : ParserState} (hdepth : depth ≤ state.depth) :
    procedure.parserWithin levels blocks state = answers procedure state := by
  induction procedure, state using call_induction levels blocks with
  | hcalls caller state ih =>
      rcases hprocedure caller with hsame | ⟨hwithin, hanswers⟩
      · exact hsame state hdepth
      · rw [← hwithin, ← hanswers]
        -- what is called is called no less deep, so the answers are the same there
        refine Script.run_congr caller.steps fun procedure entry hcall => ?_
        have hdeepens : Deepens state entry := deepens_recoverClosed.visits caller.steps
          (fun called entered _ => deepens_recoverClosed.parserWithin levels blocks called entered)
          (caller.steps.visits_of_calls hcall)
        exact ih procedure entry hcall (Nat.le_trans hdepth hdeepens.1)

end Procedure

/-! ## Levels of nesting -/

section Levels

open Procedure (parserWithin parserWithin_eq_of_depth)

/-- What an assignment reads depends on the expressions in it, which are not less deep. -/
theorem assignment_congr {levels other depth : Nat}
    (hexpression : ∀ inner : ParserState, depth ≤ inner.depth →
      expressionWithin levels inner = expressionWithin other inner)
    {state : ParserState} (hdepth : depth ≤ state.depth) :
    assignment (expressionWithin levels) state = assignment (expressionWithin other) state := by
  refine parserWithin_eq_of_depth levels 0 (parserWithin other 0) (fun procedure => ?_)
    .assignment hdepth
  cases procedure with
  | expression => exact .inl hexpression
  | arguments => exact .inr ⟨Script.run_arguments _ _, Script.run_arguments _ _⟩
  | moreArguments =>
      exact .inr ⟨Script.run_afterComma (shrinks_recovering.expressionWithin _) rfl rfl,
        Script.run_afterComma (shrinks_recovering.expressionWithin _) rfl rfl⟩
  | assignment => exact .inr ⟨Script.run_assignment _ _, Script.run_assignment _ _⟩
  | chain level => exact .inr ⟨Script.run_chain _ _ level, Script.run_chain _ _ level⟩
  | chainAfter level left =>
      exact .inr ⟨Script.run_chainAfter _ _ level left, Script.run_chainAfter _ _ level left⟩
  | unary => exact .inr ⟨Script.run_unary _ _, Script.run_unary _ _⟩
  | primary => exact .inr ⟨Script.run_primary _ _, Script.run_primary _ _⟩
  | reference name => exact .inr ⟨Script.run_reference _ _ name, Script.run_reference _ _ name⟩
  | parenthesized => exact .inr ⟨Script.run_parenthesized _ _, Script.run_parenthesized _ _⟩
  | _ => exact .inl fun _ _ => rfl

/-- Each expression inside another takes from the budget, so with more levels than are
left in it one more changes nothing. -/
theorem expressionWithin_succ (levels : Nat) :
    ∀ {state : ParserState}, nestingBudget < state.depth + constructCost * (levels + 1) →
      expressionWithin (levels + 1) state = expressionWithin levels state := by
  induction levels with
  | zero => exact fun hdeep => budgeted_of_gt .expression _ hdeep
  | succ levels ih =>
      intro state hdeep
      refine budgeted_congr fun _ => assignment_congr (fun inner hinner => ih ?_) (Nat.le_refl _)
      simp only [constructCost] at hdeep hinner ⊢
      omega

/-- What stands between braces depends on the blocks in it, which are not less deep. -/
theorem braced_congr {blocks other depth : Nat}
    (hblock : ∀ inner : ParserState, depth ≤ inner.depth →
      blockWithin blocks inner = blockWithin other inner)
    {state : ParserState} (hdepth : depth ≤ state.depth) :
    braced (statement (blockWithin blocks)) state =
      braced (statement (blockWithin other)) state := by
  refine parserWithin_eq_of_depth 0 blocks (parserWithin 0 other) (fun procedure => ?_)
    .braced hdepth
  cases procedure with
  | block => exact .inl hblock
  | statements => exact .inr ⟨Script.run_statements _ _, Script.run_statements _ _⟩
  | statement => exact .inr ⟨Script.run_statement _ _, Script.run_statement _ _⟩
  | conditional => exact .inr ⟨Script.run_conditional _ _, Script.run_conditional _ _⟩
  | whileLoop => exact .inr ⟨rfl, rfl⟩
  | braced => exact .inr ⟨Script.run_braced _ _, Script.run_braced _ _⟩
  | _ => exact .inl fun _ _ => rfl

theorem blockWithin_succ (blocks : Nat) :
    ∀ {state : ParserState}, nestingBudget < state.depth + constructCost * (blocks + 1) →
      blockWithin (blocks + 1) state = blockWithin blocks state := by
  induction blocks with
  | zero => exact fun hdeep => budgeted_of_gt .block _ hdeep
  | succ blocks ih =>
      intro state hdeep
      refine budgeted_congr fun _ => braced_congr (fun inner hinner => ih ?_) (Nat.le_refl _)
      simp only [constructCost] at hdeep hinner ⊢
      omega

end Levels

namespace Procedure

/-- The parsers take the steps of the procedures: no bound is ever met. -/
theorem run_steps (procedure : Procedure) : procedure.steps.run parser = procedure.parser := by
  have hdeep : ∀ state : ParserState,
      nestingBudget < state.depth + constructCost * (nestingLevels + 1) := by
    intro state
    simp only [nestingLevels, nestingBudget, constructCost]
    omega
  cases procedure with
  | items => exact Script.run_items _ _
  | item => exact Script.run_item _ _
  | declaration => exact Script.run_declaration _ _
  | functionAfter type start name => exact Script.run_functionAfter _ type start name
  | parameter => exact Script.run_parameter _ _
  | moreParameters => exact Script.run_afterComma shrinks_recovering.parameter rfl rfl
  | statements => exact Script.run_statements _ _
  | statement => exact Script.run_statement _ _
  | conditional => exact Script.run_conditional _ _
  | whileLoop => rfl
  | block => exact funext fun state => blockWithin_succ _ (hdeep state)
  | braced => exact Script.run_braced _ _
  | leave => exact Script.run_leave _
  | variableDecl => exact Script.run_variableDecl _ _
  | variableAfter type start name => exact Script.run_variableAfter _ type start name
  | condition => exact Script.run_condition _
  | evaluation => exact Script.run_evaluation _
  | arguments => exact Script.run_arguments _ _
  | moreArguments =>
      exact Script.run_afterComma (shrinks_recovering.expressionWithin _) rfl rfl
  | expression => exact funext fun state => expressionWithin_succ _ (hdeep state)
  | assignment => exact Script.run_assignment _ _
  | chain level => exact Script.run_chain _ _ level
  | chainAfter level left => exact Script.run_chainAfter _ _ level left
  | unary => exact Script.run_unary _ _
  | primary => exact Script.run_primary _ _
  | reference name => exact Script.run_reference _ _ name
  | parenthesized => exact Script.run_parenthesized _ _

/-- No other answers are consistent with the steps. -/
theorem eq_parser_of_run_steps {answers : ∀ procedure : Procedure, Parser procedure.Answer}
    (hanswers : ∀ procedure : Procedure, procedure.steps.run answers = answers procedure) :
    answers = parser := by
  funext procedure state
  exact (parserWithin_eq_of_depth nestingLevels nestingLevels answers
    (fun procedure => .inr ⟨run_steps procedure, hanswers procedure⟩) procedure
    (Nat.zero_le state.depth)).symm

/-- Fewer tokens are left, or the same ones and the construct is tighter. -/
theorem lt_or_tighter_of_calls {caller procedure : Procedure} {state entry : ParserState}
    (hcall : caller.steps.Calls parser state procedure entry) :
    entry.tokens.length < state.tokens.length ∨
      entry.tokens = state.tokens ∧ procedure.looseness < caller.looseness := by
  have hentry : Shrinks state entry := shrinks_of_calls hcall
  rcases steps_descends _ _ caller state procedure entry hcall with hlt | htighter
  · exact .inl hlt
  · rcases Nat.lt_or_eq_of_le hentry.length_le with hlt | heq
    · exact .inl hlt
    · exact .inr ⟨hentry.eq_of_length heq, htighter⟩

/-- No chain of calls goes on for ever. -/
theorem calls_wellFounded :
    WellFounded fun call caller : Procedure × ParserState =>
      caller.1.steps.Calls parser caller.2 call.1 call.2 :=
  Subrelation.wf below_of_calls below_wellFounded

end Procedure

/-- The state in which the parse of a source text starts. -/
def startState (source : List Char) : ParserState where
  tokens := goodTokens (lex source)
  endSpan := endSpan source

/-- A run that leaves fewer tokens has taken the first one. -/
theorem exists_taken {state after : ParserState} (hshrinks : Shrinks state after)
    (hlt : after.tokens.length < state.tokens.length) :
    ∃ token rest, state.tokens = token :: rest ∧ after.tokens <:+ rest := by
  cases htokens : state.tokens with
  | nil =>
      rw [htokens] at hlt
      exact absurd hlt (Nat.not_lt_zero _)
  | cons token rest =>
      rw [Shrinks, htokens] at hshrinks
      rcases List.suffix_cons_iff.mp hshrinks with heq | hsuffix
      · rw [heq, htokens] at hlt
        exact absurd hlt (Nat.lt_irrefl _)
      · exact ⟨token, rest, rfl, hsuffix⟩

/-- The parse reads all tokens. -/
theorem parser_items_startState (source : List Char) :
    ∃ final, Procedure.parser .items (startState source) =
        .ok (parse source).program.items final ∧
      final.tokens = [] ∧ final.current.kind = .eof := by
  have hcurrent := current_itemsWithin _ (Nat.le_refl (startState source).tokens.length)
  refine ⟨_, rfl, ?_, hcurrent⟩
  have hsuffix := shrinks_recoverClosed.itemsWithin (startState source).tokens.length
    (startState source)
  cases htokens : (itemsWithin (startState source).tokens.length (startState source)).2.tokens with
  | nil => rfl
  | cons token rest =>
      rw [ParserState.current, htokens] at hcurrent
      have hmem : token ∈ goodTokens (lex source) := hsuffix.subset (by simp [htokens])
      exact absurd hcurrent (goodTokens_ne_eof source token hmem)

/-- The parser makes progress and comes to an end.  Each round of items and each round of
statements takes at least one token, whether it succeeds or fails.  Each call of a
procedure is made after a token was taken, or of a procedure for a tighter construct, so
that no chain of calls goes on for ever.  The steps of the procedures, which know no
bounds, are taken by the bounded parsers and by no others.  At the end all tokens of the
source are read. -/
theorem parse_progresses_to_end (source : List Char) :
    (∀ state : ParserState, state.current.kind ≠ .eof →
      ∃ token rest, state.tokens = token :: rest ∧ (itemStep state).2.tokens <:+ rest) ∧
    (∀ (levels : Nat) (state : ParserState), atBlockEnd state = false →
      ∃ token rest, state.tokens = token :: rest ∧
        (recover (statement (blockWithin levels)) state).2.tokens <:+ rest) ∧
    (∀ (caller procedure : Procedure) (state entry : ParserState),
      caller.steps.Calls Procedure.parser state procedure entry →
        entry.tokens.length < state.tokens.length ∨
          entry.tokens = state.tokens ∧ procedure.looseness < caller.looseness) ∧
    (WellFounded fun call caller : Procedure × ParserState =>
      caller.1.steps.Calls Procedure.parser caller.2 call.1 call.2) ∧
    (∀ answers : ∀ procedure : Procedure, Parser procedure.Answer,
      (∀ procedure : Procedure, procedure.steps.run answers = answers procedure) ↔
        answers = Procedure.parser) ∧
    ∃ final, Procedure.parser .items (startState source) =
        .ok (parse source).program.items final ∧
      final.tokens = [] ∧ final.current.kind = .eof := by
  refine ⟨fun state heof => ?_, fun levels state hend => ?_, fun _ _ _ _ hcall => ?_,
    Procedure.calls_wellFounded, fun answers => ?_, parser_items_startState source⟩
  · exact exists_taken (shrinks_recoverClosed.itemStep state) (itemStep_advances heof)
  · have hshrinks := shrinks_recovering.statement (shrinks_recovering.blockWithin levels)
    have hadvances := statement_advances (shrinks_recovering.blockWithin levels)
      (blockWithin_advances levels)
    exact exists_taken (shrinks_recoverClosed.recover hshrinks state)
      (recover_advances hshrinks hadvances hend)
  · exact Procedure.lt_or_tighter_of_calls hcall
  · constructor
    · exact Procedure.eq_parser_of_run_steps
    · rintro rfl procedure
      exact Procedure.run_steps procedure

end DeclCheck.Parser
