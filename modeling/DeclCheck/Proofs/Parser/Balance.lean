import DeclCheck.Proofs.Parser.Descent
import Mathlib.Logic.Relation

/-!
# The nesting budget is balanced

What a construct takes from the budget it gives back.  A chain of operands does so only
when it succeeds, but a chain stands in an expression, and an expression gives everything
back.  So the loops, which go on after errors, find the same depth at the start of each
round, and at no point is more spent than the budget.
-/

namespace DeclCheck.Parser

variable {α β : Type}

theorem depth_of_keepingDepth {parser : Parser α} {state after : ParserState} {value : α}
    (hrun : keepingDepth parser state = .ok value after) : after.depth = state.depth := by
  rw [keepingDepth] at hrun
  split at hrun
  · cases hrun
    rfl
  · cases hrun

/-- Recovery leaves the depth alone. -/
theorem depth_recover (parser : Parser α) (state : ParserState) :
    (recover parser state).2.depth = (finalState parser state).depth := by
  rw [recover, finalState]
  cases parser state with
  | ok value after => rfl
  | error error after => rfl

namespace Script

open Procedure (Answer)

/-- Nothing is spent that is not given back on every way out, provided that this is true
of the given procedures. -/
def Restores (restoring : Procedure → Prop) : {α : Type} → Script Answer α → Prop
  | _, spend _ _ => False
  | _, followed first next =>
      first.Restores restoring ∧ ∀ value, (next value).Restores restoring
  | _, keepingDepth body => body.Restores restoring
  | _, recover body => body.Restores restoring
  | _, call procedure => restoring procedure
  | _, _ => True

theorem Restores.depth_finalState {restoring : Procedure → Prop}
    {answers : ∀ procedure : Procedure, Parser procedure.Answer} {script : Script Answer α}
    (hscript : script.Restores restoring) :
    ∀ {state : ParserState}, (∀ procedure entry, script.Calls answers state procedure entry →
        restoring procedure → (finalState (answers procedure) entry).depth = entry.depth) →
      (finalState (script.run answers) state).depth = state.depth := by
  induction script with
  | spend cost construct => exact hscript.elim
  | followed first next ihFirst ihNext =>
      intro state hcalls
      have hfirst := ihFirst hscript.1 fun procedure entry hcall =>
        hcalls procedure entry (.inl hcall)
      cases hrun : first.run answers state with
      | ok value after =>
          have hnext := ihNext value (hscript.2 value) fun procedure entry hcall =>
            hcalls procedure entry (.inr ⟨value, after, hrun, hcall⟩)
          rw [finalState_of_ok hrun] at hfirst
          rw [run, finalState, bind_of_ok _ hrun]
          exact hnext.trans hfirst
      | error error after =>
          rw [finalState_of_error hrun] at hfirst
          rwa [run, finalState_of_error (bind_of_error _ hrun)]
  | keepingDepth body ih =>
      intro state hcalls
      have hbody := ih hscript hcalls
      cases hrun : body.run answers state with
      | ok value after => rw [run, finalState, Parser.keepingDepth, hrun]
      | error error after =>
          rw [finalState_of_error hrun] at hbody
          rwa [run, finalState, Parser.keepingDepth, hrun]
  | budgeted cost construct body ih =>
      exact fun _ => depth_finalState_budgeted cost construct _ _
  | recover body ih =>
      exact fun hcalls => (depth_recover _ _).trans (ih hscript hcalls)
  | call procedure => exact fun hcalls => hcalls procedure _ ⟨rfl, rfl⟩ hscript
  | _ => exact fun _ => rfl

section Basic

variable {restoring : Procedure → Prop}

theorem restores_bind {first : Script Answer α} {next : α → Script Answer β}
    (hfirst : first.Restores restoring) (hnext : ∀ value, (next value).Restores restoring) :
    (first >>= next).Restores restoring :=
  ⟨hfirst, hnext⟩

theorem restores_pure (value : α) : (pure value : Script Answer α).Restores restoring :=
  trivial

theorem restores_map (f : α → β) {script : Script Answer α}
    (hscript : script.Restores restoring) : (f <$> script).Restores restoring :=
  restores_bind hscript fun _ => restores_pure _

theorem restores_ifAt (mark : Symbol) {there otherwise : Script Answer α}
    (hthere : there.Restores restoring) (hotherwise : otherwise.Restores restoring) :
    Restores restoring (do if ← at? mark then there else otherwise) := by
  refine restores_bind (restores_bind trivial fun _ => restores_pure _) fun found => ?_
  cases found with
  | true => exact hthere
  | false => exact hotherwise

theorem restores_reject (wanted : Expectation) :
    (reject wanted : Script Answer α).Restores restoring :=
  restores_bind trivial fun _ => trivial

theorem restores_symbol (mark : Symbol) : (symbol mark).Restores restoring :=
  restores_ifAt mark (restores_bind trivial fun _ => restores_pure _) (restores_reject _)

theorem restores_identifier : identifier.Restores restoring := by
  refine restores_bind trivial fun token => ?_
  split
  · exact restores_bind trivial fun _ => restores_pure _
  · exact restores_reject _

theorem restores_typeName : typeName.Restores restoring := by
  refine restores_bind trivial fun token => ?_
  split
  · exact restores_bind trivial fun _ => restores_pure _
  · exact restores_reject _

theorem restores_separatedByCommas {element : Script Answer α} {more : Script Answer (List α)}
    (helement : element.Restores restoring) (hmore : more.Restores restoring) :
    (separatedByCommas element more).Restores restoring :=
  restores_bind helement fun _ => restores_bind hmore fun _ => restores_pure _

theorem restores_afterComma {element : Script Answer α} {more : Script Answer (List α)}
    (helement : element.Restores restoring) (hmore : more.Restores restoring) :
    (afterComma element more).Restores restoring := by
  refine restores_ifAt .comma ?_ (restores_pure _)
  exact restores_bind trivial fun _ => restores_separatedByCommas helement hmore

end Basic

end Script

namespace Procedure

open Script

/-- The procedures that give back on every way out what they have spent: all but the
chains, and the assignments with which expressions begin. -/
def Restoring : Procedure → Prop
  | assignment => False
  | chain _ => False
  | chainAfter _ _ => False
  | _ => True

/-! ### One procedure after the other -/

theorem itemStep_restores : Script.itemStep.Restores Restoring := by
  refine restores_bind trivial fun read => ?_
  cases read with
  | some read => exact restores_pure _
  | none =>
      refine restores_ifAt .closeBrace ?_ (restores_pure _)
      exact restores_bind trivial fun _ => restores_pure _

theorem items_restores : Script.items.Restores Restoring := by
  refine restores_bind trivial fun token => ?_
  split
  · exact restores_pure _
  · refine restores_bind itemStep_restores fun _ => ?_
    exact restores_bind trivial fun _ => restores_pure _

theorem item_restores : Script.item.Restores Restoring := by
  refine restores_bind trivial fun token => ?_
  split
  · exact trivial
  · exact restores_bind trivial fun _ => restores_pure _

theorem declaration_restores : Script.declaration.Restores Restoring := by
  refine restores_bind restores_typeName fun type => ?_
  refine restores_bind restores_identifier fun name => ?_
  exact restores_ifAt .openParen (restores_map _ trivial) (restores_map _ trivial)

theorem functionAfter_restores (type : TypeName) (start : Span) (name : String) :
    (Script.functionAfter type start name).Restores Restoring := by
  have hbody : ∀ params : Option (List Parameter), Restores Restoring (do
      let _ ← Script.symbol .closeParen
      let body : Block ← invoke .block
      return { returnType := type.spelling, name := name, params := params,
               body := some body, span := start.cover body.span : FunctionDecl }) :=
    fun params => restores_bind (restores_symbol _) fun _ =>
      restores_bind trivial fun _ => restores_pure _
  refine restores_bind (restores_symbol _) fun _ => ?_
  refine restores_ifAt .closeParen (restores_bind (restores_pure _) hbody) ?_
  exact restores_bind (restores_map _ (restores_separatedByCommas trivial trivial)) hbody

theorem parameter_restores : Script.parameter.Restores Restoring := by
  refine restores_bind restores_typeName fun type => ?_
  exact restores_bind restores_identifier fun name => restores_pure _

theorem statements_restores : Script.statements.Restores Restoring := by
  refine restores_bind trivial fun token => ?_
  split
  · exact restores_pure _
  · exact restores_bind trivial fun _ => restores_bind trivial fun _ => restores_pure _

theorem statement_restores : Script.statement.Restores Restoring := by
  refine restores_bind trivial fun token => ?_
  split
  · exact restores_map _ trivial
  · exact trivial
  · exact trivial
  · exact trivial
  · exact restores_map _ trivial
  · exact restores_bind trivial fun _ => restores_pure _

theorem conditional_restores : Script.conditional.Restores Restoring := by
  refine restores_bind trivial fun start => restores_bind trivial fun test => ?_
  refine restores_bind trivial fun onTrue => restores_bind trivial fun token => ?_
  split
  · exact restores_bind trivial fun _ => restores_bind trivial fun _ => restores_pure _
  · exact restores_pure _

theorem whileLoop_restores : Script.whileLoop.Restores Restoring := by
  refine restores_bind trivial fun start => restores_bind trivial fun test => ?_
  exact restores_bind trivial fun body => restores_pure _

theorem braced_restores : Script.braced.Restores Restoring := by
  refine restores_bind (restores_symbol _) fun start => restores_bind trivial fun stmts => ?_
  exact restores_bind (restores_symbol _) fun stop => restores_pure _

theorem leave_restores : Script.leave.Restores Restoring := by
  have hstop : ∀ (start : Span) (value : Option Expr), Restores Restoring (do
      let stop ← Script.symbol .semicolon
      return Stmt.leave (start.cover stop) value) :=
    fun start value => restores_bind (restores_symbol _) fun _ => restores_pure _
  refine restores_bind trivial fun start => ?_
  exact restores_ifAt .semicolon (restores_bind (restores_pure _) (hstop _))
    (restores_bind (restores_map _ trivial) (hstop _))

theorem variableDecl_restores : Script.variableDecl.Restores Restoring := by
  refine restores_bind restores_typeName fun type => ?_
  exact restores_bind restores_identifier fun name => trivial

theorem variableAfter_restores (type : TypeName) (start : Span) (name : String) :
    (Script.variableAfter type start name).Restores Restoring := by
  have hstop : ∀ init : Option Expr, Restores Restoring (do
      let stop ← Script.symbol .semicolon
      return { type := type.spelling, name := name, init := init,
               span := start.cover stop : VariableDecl }) :=
    fun init => restores_bind (restores_symbol _) fun _ => restores_pure _
  refine restores_ifAt .assign ?_ (restores_bind (restores_pure _) hstop)
  exact restores_bind trivial fun _ => restores_bind (restores_map _ trivial) hstop

theorem condition_restores : Script.condition.Restores Restoring := by
  refine restores_bind (restores_symbol _) fun _ => restores_bind trivial fun expr => ?_
  exact restores_bind (restores_symbol _) fun _ => restores_pure _

theorem evaluation_restores : Script.evaluation.Restores Restoring := by
  refine restores_bind trivial fun expr => ?_
  exact restores_bind (restores_symbol _) fun _ => restores_pure _

theorem arguments_restores : Script.arguments.Restores Restoring := by
  have hclosed : ∀ args : List Expr, Restores Restoring (do
      return (args, ← Script.symbol .closeParen)) :=
    fun args => restores_bind (restores_symbol _) fun _ => restores_pure _
  refine restores_ifAt .closeParen (restores_bind (restores_pure _) hclosed) ?_
  exact restores_bind (restores_separatedByCommas trivial trivial) hclosed

theorem unary_restores : Script.unary.Restores Restoring := by
  refine restores_bind trivial fun token => ?_
  split
  · exact trivial
  · exact restores_bind trivial fun start => restores_bind trivial fun _ => restores_pure _

theorem primary_restores : Script.primary.Restores Restoring := by
  have hliteral : ∀ read : Token → Expr,
      Restores Restoring (do return read (← Script.shift)) :=
    fun read => restores_bind trivial fun _ => restores_pure _
  refine restores_bind trivial fun token => ?_
  split
  · exact hliteral _
  · exact hliteral _
  · exact hliteral _
  · exact hliteral _
  · exact hliteral _
  · exact trivial
  · exact trivial
  · exact restores_reject _

theorem reference_restores (name : String) : (Script.reference name).Restores Restoring := by
  refine restores_bind trivial fun start => restores_ifAt .openParen ?_ (restores_pure _)
  exact restores_bind trivial fun _ => restores_bind trivial fun _ => restores_pure _

theorem parenthesized_restores : Script.parenthesized.Restores Restoring := by
  refine restores_bind (restores_symbol _) fun start => restores_bind trivial fun inner => ?_
  exact restores_bind (restores_symbol _) fun _ => restores_pure _

theorem steps_restores {procedure : Procedure} (hrestoring : procedure.Restoring) :
    procedure.steps.Restores Restoring := by
  cases procedure with
  | items => exact items_restores
  | item => exact item_restores
  | declaration => exact declaration_restores
  | functionAfter type start name => exact functionAfter_restores type start name
  | parameter => exact parameter_restores
  | moreParameters => exact restores_afterComma trivial trivial
  | statements => exact statements_restores
  | statement => exact statement_restores
  | conditional => exact conditional_restores
  | whileLoop => exact whileLoop_restores
  | block => exact trivial
  | braced => exact braced_restores
  | leave => exact leave_restores
  | variableDecl => exact variableDecl_restores
  | variableAfter type start name => exact variableAfter_restores type start name
  | condition => exact condition_restores
  | evaluation => exact evaluation_restores
  | arguments => exact arguments_restores
  | moreArguments => exact restores_afterComma trivial trivial
  | expression => exact trivial
  | unary => exact unary_restores
  | primary => exact primary_restores
  | reference name => exact reference_restores name
  | parenthesized => exact parenthesized_restores
  | _ => exact hrestoring.elim

/-- However a restoring procedure ends, the depth is what it was. -/
theorem depth_finalState (procedure : Procedure) (hrestoring : procedure.Restoring)
    (state : ParserState) : (finalState procedure.parser state).depth = state.depth := by
  induction procedure, state using call_induction nestingLevels nestingLevels with
  | hcalls caller state ih =>
      rw [← run_steps]
      exact (steps_restores hrestoring).depth_finalState fun procedure entry hcall hcalled =>
        ih procedure entry hcall hcalled

/-- A procedure that succeeds leaves the depth as it was, unless it is the rest of a chain,
for which the chain answers. -/
theorem depth_of_ok {procedure : Procedure}
    (hwhole : ∀ level left, procedure ≠ chainAfter level left)
    {state after : ParserState} {value : procedure.Answer}
    (hrun : procedure.parser state = .ok value after) : after.depth = state.depth := by
  by_cases hrestoring : procedure.Restoring
  · rw [← depth_finalState procedure hrestoring state, finalState_of_ok hrun]
  · cases procedure with
    | assignment =>
        -- what was read tells that the depth is the same
        obtain ⟨_, hconsumed, _⟩ := assignment_reads (expressionWithin_reads _) hrun
        exact hconsumed.depth_eq
    | chain level => exact depth_of_keepingDepth hrun
    | chainAfter level left => exact absurd rfl (hwhole level left)
    | _ => exact absurd trivial hrestoring

/-! ## Rounds -/

/-- The next round of a loop starts in the given state. -/
def NextRound (loop : Procedure) (head next : ParserState) : Prop :=
  loop.steps.Calls parser head loop next

theorem nextRound_items_iff {head next : ParserState} :
    items.NextRound head next ↔ head.current.kind ≠ .eof ∧ next = (itemStep head).2 := by
  -- before the round is over, no list of items is read
  have hround : ∀ entry, ¬ Script.itemStep.Calls parser head items entry := by
    rintro entry (⟨hitem, -⟩ | ⟨read, after, -, hcall⟩)
    · cases hitem
    · cases read with
      | some read => exact hcall
      | none =>
          rcases hcall with (hcall | ⟨_, _, _, hcall⟩) | ⟨found, _, _, hcall⟩
          · exact hcall
          · exact hcall
          · cases found with
            | true => rcases hcall with hcall | ⟨_, _, _, hcall⟩ <;> exact hcall
            | false => exact hcall
  rw [NextRound, steps, Script.items, calls_peek_bind]
  by_cases heof : head.current.kind = .eof
  · rw [if_pos heof]
    exact ⟨False.elim, fun hnext => absurd heof hnext.1⟩
  · rw [if_neg heof]
    have hstep := run_itemStep nestingLevels nestingLevels head
    constructor
    · rintro (hcall | ⟨read, after, hrun, ⟨-, rfl⟩ | ⟨_, _, _, hcall⟩⟩)
      · exact absurd hcall (hround next)
      · cases hstep.symm.trans hrun
        exact ⟨heof, rfl⟩
      · exact hcall.elim
    · rintro ⟨-, rfl⟩
      exact .inr ⟨_, _, hstep, .inl ⟨rfl, rfl⟩⟩

theorem nextRound_statements_iff {head next : ParserState} :
    statements.NextRound head next ↔
      atBlockEnd head = false ∧ next = (recover statement.parser head).2 := by
  rw [NextRound, steps, Script.statements, calls_peek_bind]
  cases hend : atBlockEnd head with
  | true =>
      rw [atBlockEnd] at hend
      rw [if_pos hend]
      exact ⟨False.elim, fun hnext => Bool.noConfusion hnext.1⟩
  | false =>
      rw [atBlockEnd] at hend
      rw [if_neg (by simp [hend])]
      constructor
      · rintro (⟨hstatement, -⟩ | ⟨read, after, hrun, ⟨-, rfl⟩ | ⟨_, _, _, hcall⟩⟩)
        · cases hstatement
        · cases hrun
          exact ⟨rfl, rfl⟩
        · exact hcall.elim
      · rintro ⟨-, rfl⟩
        exact .inr ⟨_, _, rfl, .inl ⟨rfl, rfl⟩⟩

theorem depth_nextRound_items {head next : ParserState} (hnext : items.NextRound head next) :
    next.depth = head.depth := by
  obtain ⟨-, rfl⟩ := nextRound_items_iff.mp hnext
  have hitem : (recover item.parser head).2.depth = head.depth :=
    (depth_recover _ _).trans (depth_finalState item trivial head)
  rw [itemStep]
  split
  · rename_i hread
    rwa [show recover item.parser head = _ from hread] at hitem
  · rename_i hread
    rwa [show recover item.parser head = _ from hread] at hitem

theorem depth_nextRound_statements {head next : ParserState}
    (hnext : statements.NextRound head next) : next.depth = head.depth := by
  obtain ⟨-, rfl⟩ := nextRound_statements_iff.mp hnext
  exact (depth_recover _ _).trans (depth_finalState statement trivial head)

/-- What one round keeps, all rounds keep. -/
theorem depth_rounds {loop : Procedure}
    (hround : ∀ {head next}, loop.NextRound head next → next.depth = head.depth)
    {first head : ParserState} (hrounds : Relation.ReflTransGen loop.NextRound first head) :
    head.depth = first.depth := by
  induction hrounds with
  | refl => rfl
  | tail _ hnext ih => exact (hround hnext).trans ih

end Procedure

/-! ## Points of a parse -/

/-- While the source text is parsed, the procedure is called in the state. -/
inductive Entered (source : List Char) : Procedure → ParserState → Prop
  | start : Entered source .items (startState source)
  | call {caller procedure : Procedure} {state entry : ParserState} :
      Entered source caller state →
      caller.steps.Calls Procedure.parser state procedure entry →
      Entered source procedure entry

/-- The parse of the source text is in the state at some point. -/
def PassesThrough (source : List Char) (point : ParserState) : Prop :=
  ∃ procedure state, Entered source procedure state ∧
    procedure.steps.Visits Procedure.parser state point

theorem deepens_of_visits {procedure : Procedure} {state point : ParserState}
    (hpoint : procedure.steps.Visits Procedure.parser state point) : Deepens state point :=
  deepens_recoverClosed.visits procedure.steps
    (fun called entry _ => deepens_recoverClosed.parserWithin _ _ called entry) hpoint

theorem Entered.depth_le {source : List Char} {procedure : Procedure} {state : ParserState}
    (hentered : Entered source procedure state) : state.depth ≤ nestingBudget := by
  induction hentered with
  | start => exact Nat.zero_le _
  | @call caller _ state entry _ hcall ih =>
      have hdeepens := deepens_of_visits (caller.steps.visits_of_calls hcall)
      exact Nat.le_trans hdeepens.2 (Nat.max_le.mpr ⟨ih, Nat.le_refl _⟩)

theorem PassesThrough.depth_le {source : List Char} {point : ParserState}
    (hpoint : PassesThrough source point) : point.depth ≤ nestingBudget := by
  obtain ⟨procedure, state, hentered, hvisits⟩ := hpoint
  exact Nat.le_trans (deepens_of_visits hvisits).2
    (Nat.max_le.mpr ⟨hentered.depth_le, Nat.le_refl _⟩)

/-- The nesting budget is balanced.  The parse is the run of the procedures by their steps,
and at no point of it is the depth above the budget.  A procedure that succeeds leaves the
depth as it found it.  Expressions, blocks and whatever else runs inside of `budgeted`
leave it so when they fail as well, and so do all procedures except those with which an
expression begins.  So the depth is zero whenever the parse is about to read an item, and
the same for all statements of a block, whatever errors came before. -/
theorem nesting_balanced (source : List Char) :
    (∀ procedure : Procedure, procedure.steps.run Procedure.parser = procedure.parser) ∧
    (∃ final, Procedure.parser .items (startState source) =
      .ok (parse source).program.items final) ∧
    (∀ point, PassesThrough source point → point.depth ≤ nestingBudget) ∧
    (∀ (procedure : Procedure) (state after : ParserState) (value : procedure.Answer),
      (∀ level left, procedure ≠ .chainAfter level left) →
        procedure.parser state = .ok value after → after.depth = state.depth) ∧
    (∀ state, (finalState expression state).depth = state.depth ∧
      (finalState block state).depth = state.depth) ∧
    (∀ (α : Type) (cost : Nat) (construct : Construct) (parser : Parser α)
      (state : ParserState),
      (finalState (budgeted cost construct parser) state).depth = state.depth) ∧
    (∀ (procedure : Procedure) (state : ParserState), procedure.Restoring →
      (finalState procedure.parser state).depth = state.depth) ∧
    (∀ head, Relation.ReflTransGen Procedure.items.NextRound (startState source) head →
      head.depth = 0) ∧
    (∀ first head, Relation.ReflTransGen Procedure.statements.NextRound first head →
      head.depth = first.depth) := by
  refine ⟨Procedure.run_steps, ⟨_, rfl⟩, fun point hpoint => hpoint.depth_le,
    fun procedure state after value hwhole hrun => Procedure.depth_of_ok hwhole hrun,
    fun state => ⟨?_, ?_⟩, fun α => depth_finalState_budgeted,
    fun procedure state hrestoring => Procedure.depth_finalState procedure hrestoring state,
    fun head hrounds => ?_, fun first head hrounds => ?_⟩
  · exact Procedure.depth_finalState .expression trivial state
  · exact Procedure.depth_finalState .block trivial state
  · exact Procedure.depth_rounds Procedure.depth_nextRound_items hrounds
  · exact Procedure.depth_rounds Procedure.depth_nextRound_statements hrounds

end DeclCheck.Parser
