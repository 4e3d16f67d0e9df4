import DeclCheck.Proofs.Parser.Keeps

/-!
# Scripts

A parser is a function of states, and a function does not tell what happens between its
two ends.  A script spells the steps out: it looks at a token or takes it, fails, changes
the depth, recovers from an error, or calls a procedure.  Given parsers that answer the
calls, a script runs as a parser.  Its steps tell which procedures it calls in which
states, and which states it goes through, so that what holds of all steps holds at every
point of a run.
-/

namespace DeclCheck.Parser

/-- The steps of a parser.  A call names a procedure and goes on with its answer. -/
inductive Script {Procedure : Type} (Answer : Procedure → Type) : Type → Type 1
  | answer {α : Type} (value : α) : Script Answer α
  | fail {α : Type} (error : SyntaxError) : Script Answer α
  | peek : Script Answer Token
  | shift : Script Answer Token
  | spend (cost : Nat) (construct : Construct) : Script Answer Unit
  | followed {α β : Type} (first : Script Answer α) (next : α → Script Answer β) :
      Script Answer β
  | keepingDepth {α : Type} (body : Script Answer α) : Script Answer α
  | budgeted {α : Type} (cost : Nat) (construct : Construct) (body : Script Answer α) :
      Script Answer α
  | recover {α : Type} (body : Script Answer α) : Script Answer (Option α)
  | call (procedure : Procedure) : Script Answer (Answer procedure)

namespace Script

variable {Procedure : Type} {Answer : Procedure → Type} {α β : Type}

instance : Monad (Script Answer) where
  pure := answer
  bind := followed

/-- The parser that a script describes, where `answers` are the procedures. -/
def run (answers : ∀ procedure, Parser (Answer procedure)) :
    {α : Type} → Script Answer α → Parser α
  | _, answer value => pure value
  | _, fail error => throw error
  | _, peek => Parser.peek
  | _, shift => Parser.shift
  | _, spend cost construct => Parser.spend cost construct
  | _, followed first next => run answers first >>= fun value => run answers (next value)
  | _, keepingDepth body => Parser.keepingDepth (run answers body)
  | _, budgeted cost construct body => Parser.budgeted cost construct (run answers body)
  | _, recover body => fun state =>
      .ok (Parser.recover (run answers body) state).1
        (Parser.recover (run answers body) state).2
  | _, call procedure => answers procedure

/-- The run of a script from a state calls a procedure in a later state. -/
def Calls (answers : ∀ procedure, Parser (Answer procedure)) :
    {α : Type} → Script Answer α → ParserState → Procedure → ParserState → Prop
  | _, call own, state, procedure, entry => procedure = own ∧ entry = state
  | _, followed first next, state, procedure, entry =>
      first.Calls answers state procedure entry ∨
        ∃ value after, first.run answers state = .ok value after ∧
          (next value).Calls answers after procedure entry
  | _, keepingDepth body, state, procedure, entry => body.Calls answers state procedure entry
  | _, budgeted cost construct body, state, procedure, entry =>
      ∃ after, Parser.spend cost construct state = .ok () after ∧
        body.Calls answers after procedure entry
  | _, recover body, state, procedure, entry => body.Calls answers state procedure entry
  | _, _, _, _, _ => False

/-- The run of a script from a state is in the given state at some point: at the start or
the end of one of its steps.  What a procedure does in between is left to its own script. -/
def Visits (answers : ∀ procedure, Parser (Answer procedure)) :
    {α : Type} → Script Answer α → ParserState → ParserState → Prop
  | _, followed first next, state, point =>
      first.Visits answers state point ∨
        ∃ value after, first.run answers state = .ok value after ∧
          (next value).Visits answers after point
  | _, keepingDepth body, state, point =>
      body.Visits answers state point ∨
        point = finalState ((keepingDepth body).run answers) state
  | _, budgeted cost construct body, state, point =>
      point = state ∨
        (∃ after, Parser.spend cost construct state = .ok () after ∧
          body.Visits answers after point) ∨
        point = finalState ((budgeted cost construct body).run answers) state
  | _, recover body, state, point =>
      body.Visits answers state point ∨ point = finalState ((recover body).run answers) state
  | _, step, state, point => point = state ∨ point = finalState (step.run answers) state

/-! ## Runs -/

section Runs

variable {answers : ∀ procedure, Parser (Answer procedure)}

theorem run_bind (first : Script Answer α) (next : α → Script Answer β) :
    (first >>= next).run answers =
      first.run answers >>= fun value => (next value).run answers := rfl

/-- A script runs as a compound parser if its parts run as the parts of the parser. -/
theorem run_bind_eq {first : Script Answer α} {next : α → Script Answer β}
    {parser : Parser α} {rest : α → Parser β} (hfirst : first.run answers = parser)
    (hnext : ∀ value, (next value).run answers = rest value) :
    (first >>= next).run answers = parser >>= rest := by
  rw [run_bind, hfirst, funext hnext]

theorem run_map_eq {script : Script Answer α} {parser : Parser α}
    (hscript : script.run answers = parser) (f : α → β) :
    (f <$> script).run answers = f <$> parser := by
  rw [map_eq_bind]
  exact run_bind_eq hscript fun value => rfl

/-- What the procedures answer matters only where they are called. -/
theorem run_congr {others : ∀ procedure, Parser (Answer procedure)}
    (script : Script Answer α) :
    ∀ {state : ParserState}, (∀ procedure entry,
        script.Calls answers state procedure entry →
          answers procedure entry = others procedure entry) →
      script.run answers state = script.run others state := by
  induction script with
  | call own => exact fun hcalls => hcalls own _ ⟨rfl, rfl⟩
  | followed first next ihFirst ihNext =>
      intro state hcalls
      have hfirst := ihFirst fun procedure entry hcall => hcalls procedure entry (.inl hcall)
      cases hrun : first.run answers state with
      | ok value after =>
          rw [run, run, bind_of_ok _ hrun, bind_of_ok _ (hfirst.symm.trans hrun)]
          exact ihNext value fun procedure entry hcall =>
            hcalls procedure entry (.inr ⟨value, after, hrun, hcall⟩)
      | error error after =>
          rw [run, run, bind_of_error _ hrun, bind_of_error _ (hfirst.symm.trans hrun)]
  | keepingDepth body ih =>
      intro state hcalls
      rw [run, run, Parser.keepingDepth, Parser.keepingDepth, ih hcalls]
  | budgeted cost construct body ih =>
      intro state hcalls
      rw [run, run, budgeted_apply, budgeted_apply]
      cases hspend : Parser.spend cost construct state with
      | ok done after =>
          rw [bind_of_ok _ hspend, bind_of_ok _ hspend,
            ih fun procedure entry hcall => hcalls procedure entry ⟨after, hspend, hcall⟩]
      | error error after => rw [bind_of_error _ hspend, bind_of_error _ hspend]
  | recover body ih =>
      intro state hcalls
      simp only [run, Parser.recover, ih hcalls]
  | _ => exact fun _ => rfl

/-- A look at the next token calls nothing and leaves the state as it is. -/
theorem calls_peek_bind {next : Token → Script Answer β} {state entry : ParserState}
    {procedure : Procedure} :
    (peek >>= next).Calls answers state procedure entry ↔
      (next state.current).Calls answers state procedure entry := by
  constructor
  · rintro (hcall | ⟨token, after, hpeek, hcall⟩)
    · exact hcall.elim
    · cases hpeek
      exact hcall
  · exact fun hcall => .inr ⟨state.current, state, rfl, hcall⟩

/-! ## Points of a run -/

/-- A run is at its start and at its end. -/
theorem visits_ends (script : Script Answer α) :
    ∀ state, script.Visits answers state state ∧
      script.Visits answers state (finalState (script.run answers) state) := by
  induction script with
  | followed first next ihFirst ihNext =>
      intro state
      refine ⟨.inl (ihFirst state).1, ?_⟩
      cases hrun : first.run answers state with
      | ok value after =>
          refine .inr ⟨value, after, hrun, ?_⟩
          rw [run, finalState, bind_of_ok _ hrun]
          exact (ihNext value after).2
      | error error after =>
          refine .inl ?_
          rw [run, finalState_of_error (bind_of_error _ hrun), ← finalState_of_error hrun]
          exact (ihFirst state).2
  | keepingDepth body ih => exact fun state => ⟨.inl (ih state).1, .inr rfl⟩
  | budgeted cost construct body ih => exact fun state => ⟨.inl rfl, .inr (.inr rfl)⟩
  | recover body ih => exact fun state => ⟨.inl (ih state).1, .inr rfl⟩
  | _ => exact fun state => ⟨.inl rfl, .inr rfl⟩

/-- Where a procedure is called, the run is at that point. -/
theorem visits_of_calls (script : Script Answer α) :
    ∀ {state entry : ParserState} {procedure : Procedure},
      script.Calls answers state procedure entry → script.Visits answers state entry := by
  induction script with
  | call own => exact fun ⟨_, hentry⟩ => .inl hentry
  | followed first next ihFirst ihNext =>
      rintro state entry procedure (hcall | ⟨value, after, hrun, hcall⟩)
      · exact .inl (ihFirst hcall)
      · exact .inr ⟨value, after, hrun, ihNext value hcall⟩
  | keepingDepth body ih => exact fun hcall => .inl (ih hcall)
  | budgeted cost construct body ih =>
      exact fun ⟨after, hspend, hcall⟩ => .inr (.inl ⟨after, hspend, ih hcall⟩)
  | recover body ih => exact fun hcall => .inl (ih hcall)
  | _ => exact False.elim

end Runs

end Script

namespace RecoverClosed

variable {Procedure : Type} {Answer : Procedure → Type} {α : Type}
variable {answers : ∀ procedure, Parser (Answer procedure)}
variable {kept : ParserState → ParserState → Prop} (hkept : RecoverClosed kept)
include hkept

theorem visits_step {parser : Parser α} (hparser : Keeps kept parser)
    {state point : ParserState} (hpoint : point = state ∨ point = finalState parser state) :
    kept state point := by
  rcases hpoint with rfl | rfl
  · exact hkept.refl _
  · exact hparser _

/-- What the procedures keep where they are called, a script keeps at every point. -/
theorem visits (script : Script Answer α) :
    ∀ {state point : ParserState}, (∀ procedure entry,
        script.Calls answers state procedure entry →
          kept entry (finalState (answers procedure) entry)) →
      script.Visits answers state point → kept state point := by
  induction script with
  | answer value => exact fun _ hpoint => hkept.visits_step (hkept.pure value) hpoint
  | @fail α error =>
      intro state point _ hpoint
      have hfail : Keeps kept (throw error : Parser α) := hkept.refl
      exact hkept.visits_step hfail hpoint
  | peek => exact fun _ hpoint => hkept.visits_step hkept.combining.peek hpoint
  | shift => exact fun _ hpoint => hkept.visits_step hkept.combining.shift hpoint
  | spend cost construct =>
      exact fun _ hpoint => hkept.visits_step (hkept.spend cost construct) hpoint
  | followed first next ihFirst ihNext =>
      rintro state point hcalls (hpoint | ⟨value, after, hrun, hpoint⟩)
      · exact ihFirst (fun procedure entry hcall => hcalls procedure entry (.inl hcall)) hpoint
      · have hfirst := ihFirst (fun procedure entry hcall => hcalls procedure entry (.inl hcall))
          (first.visits_ends state).2
        rw [finalState_of_ok hrun] at hfirst
        exact hkept.trans hfirst (ihNext value (fun procedure entry hcall =>
          hcalls procedure entry (.inr ⟨value, after, hrun, hcall⟩)) hpoint)
  | keepingDepth body ih =>
      rintro state point hcalls (hpoint | rfl)
      · exact ih hcalls hpoint
      · exact hkept.keepingDepth_run (ih hcalls (body.visits_ends state).2)
  | budgeted cost construct body ih =>
      have hbody : ∀ {state after point : ParserState}, (∀ procedure entry,
          (body.budgeted cost construct).Calls answers state procedure entry →
            kept entry (finalState (answers procedure) entry)) →
          Parser.spend cost construct state = .ok () after →
          body.Visits answers after point → kept after point :=
        fun hcalls hspend => ih fun procedure entry hcall =>
          hcalls procedure entry ⟨_, hspend, hcall⟩
      rintro state point hcalls (rfl | ⟨after, hspend, hpoint⟩ | rfl)
      · exact hkept.refl _
      · have hspent := hkept.spend cost construct state
        rw [finalState_of_ok hspend] at hspent
        exact hkept.trans hspent (hbody hcalls hspend hpoint)
      · exact hkept.budgeted_run cost construct fun after hspend =>
          hbody hcalls hspend (body.visits_ends after).2
  | recover body ih =>
      rintro state point hcalls (hpoint | rfl)
      · exact ih hcalls hpoint
      · exact hkept.recover_run (ih hcalls (body.visits_ends state).2)
  | call own =>
      rintro state point hcalls (rfl | rfl)
      · exact hkept.refl _
      · exact hcalls own state ⟨rfl, rfl⟩

theorem run (script : Script Answer α) (hanswers : ∀ procedure, Keeps kept (answers procedure)) :
    Keeps kept (script.run answers) :=
  fun state => hkept.visits script (fun procedure entry _ => hanswers procedure entry)
    (script.visits_ends state).2

end RecoverClosed

end DeclCheck.Parser
