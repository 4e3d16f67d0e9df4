import DeclCheck.Proofs.Parser.Balance
import DeclCheck.Proofs.Parser.Streaming

/-!
# Lexical errors are neither lost nor moved

The parser works on the good tokens alone, and the errors of the lexer are put between
its own at the end.  This is the same as parsing the stream of tokens, where each error is
noted as it is come across: step by step the two parsers stand at the same token, with the
same errors behind them, and at the end of the source they have read the same items.  The
lexical errors of a parse are therefore what the lexer answers, whatever syntax errors
come between.
-/

namespace DeclCheck

/-- The lexical errors of a source text, in order. -/
def Parse.lexicalErrors (read : Parse) : List LexError :=
  read.errors.filterMap SourceError.lexical?

/-! ## Errors in order -/

/-- Errors in front are no tokens. -/
theorem goodTokens_dropLast_errors_append (errors : List LexError) (token : Token)
    (rest : List (Except LexError Token)) :
    goodTokens (List.dropLast (errors.map .error ++ .ok token :: rest)) =
      goodTokens (List.dropLast (.ok token :: rest)) := by
  rw [List.dropLast_append_of_ne_nil (List.cons_ne_nil _ _)]
  induction errors with
  | nil => rfl
  | cons error more ih => exact ih

namespace Parser

/-- Lexical errors that stand before all syntax errors come first. -/
theorem interleave_append_of_lt {early late : List LexError} {reports : List Report}
    (hearly : ∀ error ∈ early, ∀ report ∈ reports,
      error.span.start < report.raisedAt.start) :
    interleave (early ++ late) reports = early.map .lexical ++ interleave late reports := by
  cases reports with
  | nil => exact List.map_append
  | cons report rest =>
      have hpassed : ∀ error ∈ early,
          decide (error.span.start < report.raisedAt.start) = true :=
        fun error hmem => decide_eq_true (hearly error hmem report List.mem_cons_self)
      simp only [interleave]
      rw [List.takeWhile_append_of_pos hpassed, List.dropWhile_append_of_pos hpassed,
        List.map_append, List.append_assoc]

/-- A syntax error that stands before all lexical errors comes first. -/
theorem interleave_cons_of_le {late : List LexError} {report : Report}
    (hlate : ∀ error ∈ late, report.raisedAt.start ≤ error.span.start)
    (reports : List Report) :
    interleave late (report :: reports) =
      .syntactic report.error :: interleave late reports := by
  cases late with
  | nil => rfl
  | cons error rest =>
      have hahead : decide (error.span.start < report.raisedAt.start) = false :=
        decide_eq_false (Nat.not_lt.mpr (hlate error List.mem_cons_self))
      simp only [interleave, List.takeWhile_cons, List.dropWhile_cons, hahead,
        Bool.false_eq_true, if_false, List.map_nil, List.nil_append]

end Parser

/-! ## Reading along with the parser -/

namespace LookAhead

open DeclCheck.Parser

variable {source : List Char} {state : ParserState} {reader : LookAhead}
variable {past rest : List (Except LexError Token)}

/-- The parser and the reader stand at the same token.  What the parser has filed so far
is, together with the lexical errors passed, what the reader has noted, provided that all
that is filed later belongs here or further on. -/
structure FollowsAt (source : List Char) (state : ParserState) (reader : LookAhead)
    (past rest : List (Except LexError Token)) : Prop where
  place : At source reader past rest
  tokens : state.tokens = goodTokens (.ok reader.current :: rest).dropLast
  endSpan : state.endSpan = DeclCheck.endSpan source
  errors : ∀ later : List Report,
    (∀ report ∈ later, reader.current.span.start ≤ report.raisedAt.start) →
      interleave (lexErrors (lex source)) (state.reports ++ later) =
        reader.errors ++ interleave (lexErrors rest) later

/-- The parser and the reader go along with each other somewhere in the source. -/
def Follows (source : List Char) (state : ParserState) (reader : LookAhead) : Prop :=
  ∃ past rest, FollowsAt source state reader past rest

namespace FollowsAt

theorem current_eq (hfollows : FollowsAt source state reader past rest) :
    state.current = reader.current := by
  rw [ParserState.current, hfollows.tokens]
  cases rest with
  | nil => rw [hfollows.place.current_eq, ← hfollows.endSpan]; rfl
  | cons next more => rfl

theorem advance (hfollows : FollowsAt source state reader past rest) :
    Follows source { state with tokens := state.tokens.tail } reader.advance := by
  rcases hfollows.place.advance_cases with
    ⟨rfl, hsame⟩ | ⟨errors, token, more, rfl, herrors, rfl, hafter⟩
  · rw [hsame]
    refine ⟨past, [], hfollows.place, ?_, hfollows.endSpan, hfollows.errors⟩
    exact congrArg List.tail hfollows.tokens
  · refine ⟨_, more, hafter, ?_, hfollows.endSpan, ?_⟩
    · change state.tokens.tail = _
      rw [← goodTokens_dropLast_errors_append errors, hfollows.tokens,
        List.dropLast_cons_of_ne_nil (by simp)]
      rfl
    · -- what is filed from the next token on comes after the errors before that token
      intro later hlater
      have hstart : reader.current.span.start < reader.advance.current.span.start :=
        hfollows.place.start_lt (List.mem_append_right _ List.mem_cons_self)
      have hpassed : ∀ error ∈ errors, ∀ report ∈ later,
          error.span.start < report.raisedAt.start := by
        intro error hmem report hreport
        have hpast : .error error ∈ past ++ .ok reader.current :: errors.map .error :=
          List.mem_append_right _ (List.mem_cons_of_mem _ (List.mem_map_of_mem hmem))
        exact Nat.lt_of_lt_of_le (hafter.error_start_lt hpast) (hlater report hreport)
      rw [hfollows.errors later fun report hmem =>
          Nat.le_trans (Nat.le_of_lt hstart) (hlater report hmem),
        lexErrors_errors_append, interleave_append_of_lt hpassed, herrors, List.append_assoc]

theorem file (hfollows : FollowsAt source state reader past rest) {report : Report}
    (hreport : report.raisedAt = state.current.span) :
    FollowsAt source { state with reports := state.reports ++ [report] }
      (reader.note report.error) past rest where
  place := hfollows.place.note report.error
  tokens := hfollows.tokens
  endSpan := hfollows.endSpan
  errors := by
    intro later hlater
    have hhere : report.raisedAt.start = reader.current.span.start := by
      rw [hreport, hfollows.current_eq]
    have hall : ∀ other ∈ report :: later,
        reader.current.span.start ≤ other.raisedAt.start :=
      List.forall_mem_cons.mpr ⟨Nat.le_of_eq hhere.symm, hlater⟩
    have hahead : ∀ error ∈ lexErrors rest, report.raisedAt.start ≤ error.span.start := by
      intro error hmem
      rw [hhere]
      exact Nat.le_of_lt (hfollows.place.start_lt (mem_lexErrors.mp hmem))
    calc
      interleave (lexErrors (lex source)) ((state.reports ++ [report]) ++ later) =
          reader.errors ++ interleave (lexErrors rest) (report :: later) := by
        rw [List.append_assoc]
        exact hfollows.errors (report :: later) hall
      _ = reader.errors ++ .syntactic report.error :: interleave (lexErrors rest) later := by
        rw [interleave_cons_of_le hahead]
      _ = (reader.note report.error).errors ++ interleave (lexErrors rest) later := by
        rw [note, List.append_assoc]
        rfl

/-- At the end of the source the parser has no token left. -/
theorem tokens_eq_nil (hfollows : FollowsAt source state reader past rest)
    (heof : reader.current.kind = .eof) : state.tokens = [] := by
  obtain ⟨_, rfl⟩ := hfollows.place.past_eq_of_eof heof
  exact hfollows.tokens

end FollowsAt

/-- After a failure the parser and the reader resume at the same token. -/
theorem Follows.resume (hfollows : Follows source state reader) (tokens : List Token)
    (htokens : state.tokens = tokens) :
    Follows source { state with tokens := Parser.resume tokens } reader.resume := by
  induction tokens generalizing state reader with
  | nil =>
      obtain ⟨past, rest, hfollows⟩ := hfollows
      have hstay : { state with tokens := [] } = state := by rw [← htokens]
      have heof : reader.current.kind = .eof := by
        rw [← hfollows.current_eq, ParserState.current, htokens]
      rw [resume_of_eof heof, Parser.resume, hstay]
      exact ⟨past, rest, hfollows⟩
  | cons token more ih =>
      obtain ⟨past, rest, hfollows⟩ := hfollows
      have hstay : { state with tokens := token :: more } = state := by rw [← htokens]
      have htoken : reader.current = token := by
        rw [← hfollows.current_eq, ParserState.current, htokens]
      have heof : reader.current.kind ≠ .eof := by
        intro hend
        cases htokens.symm.trans (hfollows.tokens_eq_nil hend)
      have hadvance := hfollows.advance
      rw [htokens, List.tail_cons] at hadvance
      rw [resume_of_ne_eof heof, htoken, Parser.resume]
      split
      · exact hadvance
      · -- a semicolon is passed, but a closing brace is left to the block around it
        split
        · rw [hstay]
          exact ⟨past, rest, hfollows⟩
        · have hlater := ih hadvance rfl
          exact hlater

/-- A new reader goes along with the parser before its first step. -/
theorem follows_ofSource (source : List Char) :
    Follows source (startState source) (ofSource source) := by
  obtain ⟨errors, rest, hat, herrors⟩ := at_ofSource source
  refine ⟨_, rest, hat, ?_, rfl, ?_⟩
  · have hlex : lex source = (answersOf source).dropLast := List.dropLast_concat.symm
    rw [startState, hlex, hat.answers]
    exact goodTokens_dropLast_errors_append errors _ rest
  · intro later hlater
    have hlexical : lexErrors (lex source) = errors ++ lexErrors rest := by
      rw [← lexErrors_answersOf, hat.answers, lexErrors_errors_append]
    rw [startState, List.nil_append, hlexical, herrors]
    apply interleave_append_of_lt
    intro error hmem report hreport
    exact Nat.lt_of_lt_of_le (hat.error_start_lt (List.mem_map_of_mem hmem))
      (hlater report hreport)

end LookAhead

/-! ## The two parsers agree -/

namespace Parser

open LookAhead (Follows)

variable {source : List Char} {α β : Type}

/-- The parser of the good tokens and the parser of the stream stand at the same place of
the source, with the same errors behind them and the same nesting spent. -/
structure Alongside (source : List Char) (state : ParserState) (other : StreamState) :
    Prop where
  reads : LookAhead.Reads (.ofSource source) other.reader
  follows : Follows source state other.reader
  depth : other.depth = state.depth

/-- The two parsers have come to the same result. -/
inductive Agrees (source : List Char) :
    EStateM.Result SyntaxError ParserState α →
      EStateM.Result Interruption StreamState α → Prop
  | ok (value : α) {state : ParserState} {other : StreamState}
      (halong : Alongside source state other) :
      Agrees source (.ok value state) (.ok value other)
  | error (error : SyntaxError) {state : ParserState} {other : StreamState}
      (halong : Alongside source state other) :
      Agrees source (.error error state) (.error (.syntactic error) other)

namespace Alongside

variable {state : ParserState} {other : StreamState} (halong : Alongside source state other)
include halong

theorem current_eq : other.reader.current = state.current := by
  obtain ⟨past, rest, hfollows⟩ := halong.follows
  exact hfollows.current_eq.symm

theorem shift :
    Alongside source { state with tokens := state.tokens.tail }
      { other with reader := other.reader.advance } where
  reads := halong.reads.tail (.advance other.reader)
  follows := by
    obtain ⟨past, rest, hfollows⟩ := halong.follows
    exact hfollows.advance
  depth := halong.depth

theorem withDepth (depth : Nat) :
    Alongside source { state with depth := depth } { other with depth := depth } where
  reads := halong.reads
  follows := by
    obtain ⟨past, rest, hfollows⟩ := halong.follows
    exact ⟨past, rest, hfollows.place, hfollows.tokens, hfollows.endSpan, hfollows.errors⟩
  depth := rfl

/-- Both file the error where they stand and resume at the same token. -/
theorem recovered (error : SyntaxError) :
    Alongside source
      { state with
        tokens := Parser.resume state.tokens
        reports := state.reports ++ [{ error := error, raisedAt := state.current.span }] }
      { other with reader := (other.reader.note error).resume } where
  reads := (halong.reads.tail (.note other.reader error)).trans (LookAhead.reads_resume _)
  follows := by
    obtain ⟨past, rest, hfollows⟩ := halong.follows
    have hfiled : Follows source
        { state with
          reports := state.reports ++ [{ error := error, raisedAt := state.current.span }] }
        (other.reader.note error) := ⟨past, rest, hfollows.file rfl⟩
    exact hfiled.resume state.tokens rfl
  depth := halong.depth

theorem spend (cost : Nat) (construct : Construct) :
    Agrees source (Parser.spend cost construct state)
      (StreamParser.spend cost construct other) := by
  rw [StreamParser.spend, halong.depth, halong.current_eq]
  split
  · rename_i hdeep
    rw [spend_of_gt construct hdeep]
    exact .error _ halong
  · rename_i hleft
    rw [spend_of_le construct (Nat.le_of_not_gt hleft)]
    exact .ok () (halong.withDepth _)

end Alongside

namespace Agrees

variable {state : ParserState} {other : StreamState}
variable {parser : Parser α} {reading : StreamParser α}

theorem bind (hfirst : Agrees source (parser state) (reading other))
    {next : α → Parser β} {more : α → StreamParser β}
    (hnext : ∀ value after later, parser state = .ok value after →
      Alongside source after later → Agrees source (next value after) (more value later)) :
    Agrees source ((parser >>= next) state) ((reading >>= more) other) := by
  change Agrees source _ (EStateM.bind reading more other)
  rw [EStateM.bind]
  generalize hrun : parser state = result at hfirst
  generalize reading other = outcome at hfirst
  cases hfirst with
  | ok value halong =>
      rw [bind_of_ok _ hrun]
      exact hnext value _ _ hrun halong
  | error error halong =>
      rw [bind_of_error _ hrun]
      exact .error error halong

theorem keepingDepth (hbody : Agrees source (parser state) (reading other))
    (hdepth : other.depth = state.depth) :
    Agrees source (Parser.keepingDepth parser state)
      (StreamParser.keepingDepth reading other) := by
  rw [Parser.keepingDepth, StreamParser.keepingDepth, hdepth]
  generalize parser state = result at hbody
  generalize reading other = outcome at hbody
  cases hbody with
  | ok value halong => exact .ok value (halong.withDepth _)
  | error error halong => exact .error error halong

theorem budgeted (cost : Nat) (construct : Construct)
    (hboth : Agrees source ((Parser.spend cost construct >>= fun _ => parser) state)
      ((StreamParser.spend cost construct >>= fun _ => reading) other))
    (hdepth : other.depth = state.depth) :
    Agrees source (Parser.budgeted cost construct parser state)
      (StreamParser.budgeted cost construct reading other) := by
  rw [budgeted_apply, StreamParser.budgeted, hdepth]
  generalize (Parser.spend cost construct >>= fun _ => parser) state = result at hboth
  generalize (StreamParser.spend cost construct >>= fun _ => reading) other = outcome at hboth
  cases hboth with
  | ok value halong => exact .ok value (halong.withDepth _)
  | error error halong => exact .error error (halong.withDepth _)

theorem recover (hbody : Agrees source (parser state) (reading other)) :
    Agrees source (.ok (Parser.recover parser state).1 (Parser.recover parser state).2)
      (StreamParser.recover reading other) := by
  rw [Parser.recover, StreamParser.recover]
  generalize parser state = result at hbody
  generalize reading other = outcome at hbody
  cases hbody with
  | ok value halong => exact .ok (some value) halong
  | error error halong => exact .ok none (halong.recovered error)

end Agrees

/-- A script comes to the same result from a stream as from the good tokens, if the
procedures do so where it calls them. -/
theorem Script.agrees {Procedure : Type} {Answer : Procedure → Type}
    {answers : ∀ procedure, Parser (Answer procedure)}
    {readings : ∀ procedure, StreamParser (Answer procedure)} (script : Script Answer α) :
    ∀ {state : ParserState} {other : StreamState}, Alongside source state other →
      (∀ procedure entry start, script.Calls answers state procedure entry →
        Alongside source entry start →
          Agrees source (answers procedure entry) (readings procedure start)) →
      Agrees source (script.run answers state) (script.read readings other) := by
  induction script with
  | answer value => exact fun halong _ => .ok value halong
  | fail error => exact fun halong _ => .error error halong
  | peek =>
      intro state other halong _
      rw [run, read, StreamParser.peek, halong.current_eq]
      exact .ok _ halong
  | shift =>
      intro state other halong _
      rw [run, read, StreamParser.shift, halong.current_eq]
      exact .ok _ halong.shift
  | spend cost construct => exact fun halong _ => halong.spend cost construct
  | followed first next ihFirst ihNext =>
      intro state other halong hcalls
      have hfirst := ihFirst halong fun procedure entry start hcall =>
        hcalls procedure entry start (.inl hcall)
      refine hfirst.bind fun value after later hrun hafter => ?_
      exact ihNext value hafter fun procedure entry start hcall =>
        hcalls procedure entry start (.inr ⟨value, after, hrun, hcall⟩)
  | keepingDepth body ih =>
      exact fun halong hcalls => (ih halong hcalls).keepingDepth halong.depth
  | budgeted cost construct body ih =>
      intro state other halong hcalls
      refine .budgeted cost construct ?_ halong.depth
      refine (halong.spend cost construct).bind fun _ after later hspend hafter => ?_
      exact ih hafter fun procedure entry start hcall =>
        hcalls procedure entry start ⟨after, hspend, hcall⟩
  | recover body ih => exact fun halong hcalls => (ih halong hcalls).recover
  | call own => exact fun halong hcalls => hcalls own _ _ ⟨rfl, rfl⟩ halong

namespace Procedure

/-- A bound on the calls that are open inside each other at one token. -/
def callsPerToken : Nat := 25

theorem looseness_lt (procedure : Procedure) : procedure.looseness < callsPerToken := by
  cases procedure <;> simp only [looseness, callsPerToken] <;> omega

/-- No chain of calls from a procedure in a state is longer than its rank. -/
def rank (procedure : Procedure) (state : ParserState) : Nat :=
  callsPerToken * state.tokens.length + procedure.looseness

theorem rank_lt_of_calls {caller procedure : Procedure} {state entry : ParserState}
    (hcall : caller.steps.Calls parser state procedure entry) :
    procedure.rank entry < caller.rank state := by
  rcases lt_or_tighter_of_calls hcall with hlt | ⟨htokens, htighter⟩
  · calc
      procedure.rank entry < callsPerToken * (entry.tokens.length + 1) :=
        Nat.add_lt_add_left procedure.looseness_lt _
      _ ≤ callsPerToken * state.tokens.length := Nat.mul_le_mul_left _ hlt
      _ ≤ caller.rank state := Nat.le_add_right _ _
  · rw [rank, rank, htokens]
    exact Nat.add_lt_add_left htighter _

/-- With enough calls a procedure comes to the same result from a stream as from the good
tokens. -/
theorem readWithin_agrees (calls : Nat) :
    ∀ (procedure : Procedure) {state : ParserState} {other : StreamState},
      procedure.rank state < calls → Alongside source state other →
        Agrees source (procedure.parser state) (procedure.readWithin calls other) := by
  induction calls with
  | zero => exact fun _ _ _ hrank => absurd hrank (Nat.not_lt_zero _)
  | succ calls ih =>
      intro procedure state other hrank halong
      rw [← run_steps]
      refine procedure.steps.agrees halong fun called entry start hcall hstart => ?_
      exact ih called (Nat.lt_of_lt_of_le (rank_lt_of_calls hcall) (Nat.le_of_lt_succ hrank))
        hstart

end Procedure

/-- Before the first step the two parsers stand at the same token. -/
theorem alongside_start (source : List Char) :
    Alongside source (startState source) (.ofSource source) where
  reads := .refl
  follows := LookAhead.follows_ofSource source
  depth := rfl

/-- At the end of the source nothing but the errors is left to tell about the state. -/
theorem Alongside.eq_atEnd {state : ParserState} {other : StreamState}
    (halong : Alongside source state other) (heof : state.current.kind = .eof)
    (hdepth : state.depth = 0) :
    other = .atEnd source (interleave (lexErrors (lex source)) state.reports) := by
  have hend : other.reader.current.kind = .eof := by rw [halong.current_eq, heof]
  obtain ⟨past, rest, hfollows⟩ := halong.follows
  obtain ⟨_, rfl⟩ := hfollows.place.past_eq_of_eof hend
  -- nothing more is filed, and no lexical error is left to be put in
  have herrors : interleave (lexErrors (lex source)) state.reports = other.reader.errors := by
    have hall := hfollows.errors [] (List.forall_mem_nil _)
    rw [List.append_nil] at hall
    exact hall.trans (List.append_nil _)
  obtain ⟨⟨stream, current, errors⟩, depth⟩ := other
  obtain rfl : stream = _ := hfollows.place.stream
  obtain rfl : current = _ := hfollows.place.current_eq
  obtain rfl : depth = 0 := halong.depth.trans hdepth
  rw [herrors]
  rfl

/-- The parse of a source text from the stream of its tokens reads the same items as the
parse of its good tokens, notes the same errors, and comes to the end of the source. -/
theorem readWithin_items {source : List Char} {calls : Nat}
    (hcalls : Procedure.callsPerToken * ((goodTokens (lex source)).length + 1) ≤ calls) :
    Procedure.items.readWithin calls (.ofSource source) =
        .ok (parse source).program.items (.atEnd source (parse source).errors) ∧
      LookAhead.Reads (.ofSource source)
        (StreamState.atEnd source (parse source).errors).reader := by
  have hrank : Procedure.items.rank (startState source) < calls :=
    Nat.lt_of_lt_of_le (Nat.add_lt_add_left Procedure.items.looseness_lt _) hcalls
  have hdepth := Procedure.depth_finalState .items trivial (startState source)
  have hcurrent := current_itemsWithin _ (Nat.le_refl (startState source).tokens.length)
  have hagrees := Procedure.items.readWithin_agrees calls hrank (alongside_start source)
  generalize Procedure.items.readWithin calls (.ofSource source) = outcome at hagrees
  cases hagrees with
  | ok value halong =>
      obtain rfl := halong.eq_atEnd hcurrent hdepth
      exact ⟨rfl, halong.reads⟩

end Parser

/-- Lexical errors are neither lost nor moved.  Parsing the stream of tokens with one
token of look-ahead, where a lexical error is noted when it is come across and a syntax
error when it is recovered from, gives the program and the errors of the parse and ends at
the end of the source.  The lexical errors among them are those that the lexer answers
before the end of the source, once each and in order. -/
theorem lexicalErrors_parse (source : List Char) :
    (∀ calls,
      Parser.Procedure.callsPerToken * ((goodTokens (lex source)).length + 1) ≤ calls →
        Parser.Procedure.items.readWithin calls { reader := .ofSource source } =
          .ok (parse source).program.items
            { reader :=
                { stream := { pending := [], endSpan := endSpan source }
                  current := { kind := .eof, span := endSpan source }
                  errors := (parse source).errors }
              depth := 0 }) ∧
    ∃ before last,
      (TokenStream.ofSource source).answers (before.length + 1) = before ++ [.ok last] ∧
      last.kind = .eof ∧ (∀ token, .ok token ∈ before → token.kind ≠ .eof) ∧
      (parse source).lexicalErrors = lexErrors before := by
  refine ⟨fun calls hcalls => (Parser.readWithin_items hcalls).1, lex source, _,
    TokenStream.answers_add _ 1 _ rfl, rfl, ?_, ?_⟩
  · intro token hmem
    exact goodTokens_ne_eof source token (List.mem_filterMap.mpr ⟨_, hmem, rfl⟩)
  · exact (Parser.readWithin_items (Nat.le_refl _)).2.lexical_of_eof rfl

end DeclCheck
