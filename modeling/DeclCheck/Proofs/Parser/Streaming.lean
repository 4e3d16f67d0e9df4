import DeclCheck.Proofs.Parser.LookAhead
import DeclCheck.Proofs.Parser.Procedures

/-!
# Parsing from a stream

The procedures of the parser once more, but over a reader with one token of look-ahead
instead of a list of good tokens.  To take a token is to advance the reader, which notes
the lexical errors that it comes across, and a syntax error is noted when it is recovered
from.  So both kinds of errors go into one list, in the order in which they are found.

The steps of the procedures know no bounds.  Here the number of calls that may be open
inside each other is bounded, and a run that needs more is told from one that fails.
-/

namespace DeclCheck

/-- Asking for a token uses up some of what a stream holds, unless the end has come. -/
theorem TokenStream.pull_shortens (stream : TokenStream) :
    stream.pull.2.1.kind = .eof ∨
      stream.pull.2.2.pending.length < stream.pending.length := by
  fun_induction TokenStream.pull stream with
  | case1 stream token rest hnext =>
      cases hpending : stream.pending with
      | nil =>
          simp only [next, hpending, Prod.mk.injEq, Except.ok.injEq] at hnext
          rw [← hnext.1]
          exact .inl rfl
      | cons result more =>
          simp only [next, hpending, Prod.mk.injEq] at hnext
          rw [← hnext.2, List.length_cons]
          exact .inr (Nat.lt_succ_self _)
  | case2 stream error rest hnext hshorter ih =>
      exact ih.imp_right fun hlt => Nat.lt_trans hlt hshorter

namespace LookAhead

/-- How many tokens may still be taken. -/
def left (reader : LookAhead) : Nat :=
  if reader.current.kind = .eof then 0 else reader.stream.pending.length + 1

theorem left_advance_lt {reader : LookAhead} (heof : reader.current.kind ≠ .eof) :
    reader.advance.left < reader.left := by
  rw [left, left, if_neg heof]
  split
  · exact Nat.succ_pos _
  · rename_i hafter
    exact Nat.succ_lt_succ (reader.stream.pull_shortens.resolve_left hafter)

/-- Goes on to where reading can resume after a failure: past the next semicolon, or to
the next closing brace if it comes first. -/
def resume (reader : LookAhead) : LookAhead :=
  if heof : reader.current.kind = .eof then reader
  else if reader.current.kind = .symbol .semicolon then reader.advance
  else if reader.current.kind = .symbol .closeBrace then reader
  else
    have := left_advance_lt heof
    reader.advance.resume
termination_by reader.left

theorem resume_of_eof {reader : LookAhead} (heof : reader.current.kind = .eof) :
    reader.resume = reader := by
  rw [resume, dif_pos heof]

theorem resume_of_ne_eof {reader : LookAhead} (heof : reader.current.kind ≠ .eof) :
    reader.resume =
      if reader.current.kind = .symbol .semicolon then reader.advance
      else if reader.current.kind = .symbol .closeBrace then reader
      else reader.advance.resume := by
  rw [resume, dif_neg heof]

theorem reads_resume (reader : LookAhead) : Reads reader reader.resume := by
  fun_induction resume reader with
  | case1 reader heof => exact .refl
  | case2 reader heof hsemicolon => exact .single (.advance reader)
  | case3 reader heof hsemicolon hbrace => exact .refl
  | case4 reader heof hsemicolon hbrace hleft ih => exact .head (.advance reader) ih

end LookAhead

namespace Parser

variable {α : Type}

/-- A reader, and the nesting spent so far. -/
structure StreamState where
  reader : LookAhead
  depth : Nat := 0

namespace StreamState

/-- The state in which the reading of a source text starts. -/
def ofSource (source : List Char) : StreamState where
  reader := .ofSource source

/-- The state at the end of a source text, with all errors that have been noted. -/
def atEnd (source : List Char) (errors : List SourceError) : StreamState where
  reader :=
    { stream := { pending := [], endSpan := endSpan source }
      current := { kind := .eof, span := endSpan source }
      errors := errors }

end StreamState

/-- Why a parser of a stream breaks off: because of a syntax error, or because more calls
would be open inside each other than is allowed. -/
inductive Interruption where
  | syntactic (error : SyntaxError)
  | outOfCalls

/-- A parser of some construct that reads from a stream. -/
abbrev StreamParser := EStateM Interruption StreamState

namespace StreamParser

def peek : StreamParser Token := fun state =>
  .ok state.reader.current state

def shift : StreamParser Token := fun state =>
  .ok state.reader.current { state with reader := state.reader.advance }

def spend (cost : Nat) (construct : Construct) : StreamParser Unit := fun state =>
  if state.depth + cost > nestingBudget then
    .error (.syntactic { cause := .tooDeep construct, span := state.reader.current.span })
      state
  else .ok () { state with depth := state.depth + cost }

def keepingDepth (parser : StreamParser α) : StreamParser α := fun state =>
  match parser state with
  | .ok value after => .ok value { after with depth := state.depth }
  | .error reason after => .error reason after

def budgeted (cost : Nat) (construct : Construct) (parser : StreamParser α) :
    StreamParser α := fun state =>
  match (do spend cost construct; parser) state with
  | .ok value after => .ok value { after with depth := state.depth }
  | .error reason after => .error reason { after with depth := state.depth }

/-- Runs a parser; if it fails, notes the error and goes on to where reading can resume. -/
def recover (parser : StreamParser α) : StreamParser (Option α) := fun state =>
  match parser state with
  | .ok value after => .ok (some value) after
  | .error (.syntactic error) after =>
      .ok none { after with reader := (after.reader.note error).resume }
  | .error .outOfCalls after => .error .outOfCalls after

end StreamParser

/-- The parser of a stream that a script describes, where `answers` are the
procedures. -/
def Script.read {Procedure : Type} {Answer : Procedure → Type}
    (answers : ∀ procedure, StreamParser (Answer procedure)) :
    {α : Type} → Script Answer α → StreamParser α
  | _, answer value => pure value
  | _, fail error => throw (.syntactic error)
  | _, peek => StreamParser.peek
  | _, shift => StreamParser.shift
  | _, spend cost construct => StreamParser.spend cost construct
  | _, followed first next => read answers first >>= fun value => read answers (next value)
  | _, keepingDepth body => StreamParser.keepingDepth (read answers body)
  | _, budgeted cost construct body =>
      StreamParser.budgeted cost construct (read answers body)
  | _, recover body => StreamParser.recover (read answers body)
  | _, call procedure => answers procedure

/-- What a procedure reads from a stream, with no more than the given number of calls open
inside each other. -/
def Procedure.readWithin : Nat → ∀ procedure : Procedure, StreamParser procedure.Answer
  | 0, _ => throw .outOfCalls
  | calls + 1, procedure => procedure.steps.read (readWithin calls)

end Parser

end DeclCheck
