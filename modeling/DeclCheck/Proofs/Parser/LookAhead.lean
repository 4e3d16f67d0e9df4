import DeclCheck.Parser.Program
import DeclCheck.Proofs.Token.Order
import DeclCheck.Proofs.Token.Tiling
import Mathlib.Logic.Relation

/-!
# Reading with one token of look-ahead

A reader holds the next good token and asks the stream for another one whenever that
token is taken.  The errors that the stream answers on the way are noted as they come,
between the syntax errors that are noted by whoever uses the reader.

However it is used, a reader that has come to the end of the source has noted every
lexical error of the source once, in order.
-/

namespace DeclCheck

/-- The lexical error that an error of the source text is, if it is one. -/
def SourceError.lexical? : SourceError → Option LexError
  | .lexical error => some error
  | .syntactic _ => none

theorem filterMap_lexical?_map (errors : List LexError) :
    (errors.map SourceError.lexical).filterMap SourceError.lexical? = errors := by
  rw [List.filterMap_map]
  exact List.filterMap_some

theorem lexErrors_append (first second : List (Except LexError Token)) :
    lexErrors (first ++ second) = lexErrors first ++ lexErrors second :=
  List.filterMap_append

theorem lexErrors_map_error (errors : List LexError) :
    lexErrors (errors.map Except.error) = errors := by
  rw [lexErrors, List.filterMap_map]
  exact List.filterMap_some

theorem mem_lexErrors {error : LexError} {results : List (Except LexError Token)} :
    error ∈ lexErrors results ↔ .error error ∈ results := by
  rw [lexErrors, List.mem_filterMap]
  constructor
  · rintro ⟨result, hmem, hsome⟩
    cases result with
    | ok token => cases hsome
    | error other =>
        cases hsome
        exact hmem
  · intro hmem
    exact ⟨.error error, hmem, rfl⟩

theorem lexErrors_errors_append (errors : List LexError) (token : Token)
    (rest : List (Except LexError Token)) :
    lexErrors (errors.map .error ++ .ok token :: rest) = errors ++ lexErrors rest := by
  rw [lexErrors_append, lexErrors_map_error]
  rfl

namespace TokenStream

theorem pending_length_lt {stream rest : TokenStream} {error : LexError}
    (hnext : stream.next = (.error error, rest)) :
    rest.pending.length < stream.pending.length := by
  cases hpending : stream.pending with
  | nil => simp [next, hpending] at hnext
  | cons result more =>
      simp only [next, hpending, Prod.mk.injEq] at hnext
      rw [← hnext.2, List.length_cons]
      exact Nat.lt_succ_self _

/-- Asks for results until one of them is a token: the errors before it, the token, and
the stream after it. -/
def pull (stream : TokenStream) : List LexError × Token × TokenStream :=
  match hnext : stream.next with
  | (.ok token, rest) => ([], token, rest)
  | (.error error, rest) =>
      have := pending_length_lt hnext
      (error :: rest.pull.1, rest.pull.2)
termination_by stream.pending.length

theorem pull_of_ok {stream rest : TokenStream} {token : Token}
    (hnext : stream.next = (.ok token, rest)) : stream.pull = ([], token, rest) := by
  rw [pull]
  split
  · rename_i hother
    cases hnext.symm.trans hother
    rfl
  · rename_i hother
    cases hnext.symm.trans hother

theorem pull_of_error {stream rest : TokenStream} {error : LexError}
    (hnext : stream.next = (.error error, rest)) :
    stream.pull = (error :: rest.pull.1, rest.pull.2) := by
  rw [pull]
  split
  · rename_i hother
    cases hnext.symm.trans hother
  · rename_i hother
    cases hnext.symm.trans hother
    rfl

/-- The errors in front are passed over. -/
theorem pull_errors_append (endSpan : Span) (errors : List LexError)
    (pending : List (Except LexError Token)) :
    pull { pending := errors.map .error ++ pending, endSpan := endSpan } =
      (errors ++ (pull { pending := pending, endSpan := endSpan }).1,
        (pull { pending := pending, endSpan := endSpan }).2) := by
  induction errors with
  | nil => rfl
  | cons error rest ih =>
      rw [List.map_cons, List.cons_append, pull_of_error rfl, ih, List.cons_append]

end TokenStream

/-- A reader: the stream it asks, the token that comes next, and the errors noted so
far. -/
structure LookAhead where
  stream : TokenStream
  current : Token
  errors : List SourceError

namespace LookAhead

/-- Takes the next token and asks for another one. -/
def advance (reader : LookAhead) : LookAhead where
  stream := reader.stream.pull.2.2
  current := reader.stream.pull.2.1
  errors := reader.errors ++ reader.stream.pull.1.map .lexical

/-- Notes a syntax error. -/
def note (reader : LookAhead) (error : SyntaxError) : LookAhead :=
  { reader with errors := reader.errors ++ [.syntactic error] }

/-- A reader of a source text, which has asked for its first token. -/
def ofSource (source : List Char) : LookAhead where
  stream := (TokenStream.ofSource source).pull.2.2
  current := (TokenStream.ofSource source).pull.2.1
  errors := (TokenStream.ofSource source).pull.1.map .lexical

/-- What can be done with a reader. -/
inductive Step : LookAhead → LookAhead → Prop
  | advance (reader : LookAhead) : Step reader reader.advance
  | note (reader : LookAhead) (error : SyntaxError) : Step reader (reader.note error)

/-- The second reader is the first one after some use. -/
def Reads : LookAhead → LookAhead → Prop :=
  Relation.ReflTransGen Step

end LookAhead

/-- All that the stream of a source text answers, up to the end of the source. -/
def answersOf (source : List Char) : List (Except LexError Token) :=
  lex source ++ [.ok (TokenStream.ofSource source).endToken]

theorem start_lt_endSpan {source : List Char} {result : Except LexError Token}
    (hmem : result ∈ lex source) :
    (Lexer.resultSpan result).start < (endSpan source).start := by
  obtain ⟨hnonempty, text, ⟨before, after, hsource, _, hstop⟩, _⟩ :=
    (Lexer.tiles_lex source).selects result hmem
  have hlength : (endSpan source).start =
      byteLength before + (byteLength text + byteLength after) := by
    rw [← byteLength_append, ← byteLength_append, ← hsource]
    rfl
  omega

/-- Each answer starts after the one before it, the end of the source included. -/
theorem answersOf_pairwise (source : List Char) :
    (answersOf source).Pairwise fun first second =>
      (Lexer.resultSpan first).start < (Lexer.resultSpan second).start := by
  have htiles := Lexer.tiles_lex source
  refine List.pairwise_append.mpr ⟨?_, List.pairwise_singleton _ _, ?_⟩
  · apply htiles.pairwise.imp_of_mem
    intro first second hfirst _ hordered
    exact Nat.lt_of_lt_of_le (htiles.selects first hfirst).1 hordered
  · intro result hmem last hlast
    cases List.mem_singleton.mp hlast
    exact start_lt_endSpan hmem

namespace LookAhead

variable {source : List Char} {reader : LookAhead}
variable {past rest : List (Except LexError Token)}

/-- The reader has passed the first of the answers, and those after the current token are
still to come.  The end of the source is never used up, so the stream does not hold it. -/
structure At (source : List Char) (reader : LookAhead)
    (past rest : List (Except LexError Token)) : Prop where
  answers : answersOf source = past ++ .ok reader.current :: rest
  stream : reader.stream = { pending := rest.dropLast, endSpan := endSpan source }

/-- Answers that end with a token start with some errors and a token. -/
theorem exists_errors_token {answers : List (Except LexError Token)} {last : Token}
    (hlast : answers.getLast? = some (.ok last)) :
    ∃ (errors : List LexError) (token : Token) (rest : List (Except LexError Token)),
      answers = errors.map .error ++ .ok token :: rest := by
  induction answers with
  | nil => cases hlast
  | cons answer rest ih =>
      cases answer with
      | ok token => exact ⟨[], token, rest, rfl⟩
      | error error =>
          have hrest : rest.getLast? = some (.ok last) := by
            cases rest with
            | nil => cases hlast
            | cons next more => rwa [List.getLast?_cons_cons] at hlast
          obtain ⟨errors, token, more, rfl⟩ := ih hrest
          exact ⟨error :: errors, token, more, rfl⟩

/-- Asking a stream for a token passes over the errors before the next one among the
answers, which may be the end of the source. -/
theorem pull_dropLast {answers : List (Except LexError Token)} {endSpan : Span}
    (hlast : answers.getLast? = some (.ok { kind := .eof, span := endSpan }))
    {errors : List LexError} {token : Token} {rest : List (Except LexError Token)}
    (hanswers : answers = errors.map .error ++ .ok token :: rest) :
    TokenStream.pull { pending := answers.dropLast, endSpan := endSpan } =
      (errors, token, { pending := rest.dropLast, endSpan := endSpan }) := by
  subst hanswers
  rw [List.dropLast_append_of_ne_nil (List.cons_ne_nil _ _), TokenStream.pull_errors_append]
  cases rest with
  | nil =>
      have htoken : token = { kind := .eof, span := endSpan } := by simpa using hlast
      have hend : TokenStream.pull { pending := [], endSpan := endSpan } =
          ([], { kind := .eof, span := endSpan }, { pending := [], endSpan := endSpan }) :=
        TokenStream.pull_of_ok rfl
      rw [List.dropLast_singleton, hend, htoken, List.append_nil, List.dropLast_nil]
  | cons next more =>
      rw [List.dropLast_cons_cons, TokenStream.pull_of_ok rfl, List.append_nil]

theorem lexErrors_answersOf (source : List Char) :
    lexErrors (answersOf source) = lexErrors (lex source) := by
  rw [answersOf, lexErrors_append]
  exact List.append_nil _

theorem getLast?_answersOf (source : List Char) :
    (answersOf source).getLast? = some (.ok { kind := .eof, span := endSpan source }) :=
  List.getLast?_concat

namespace At

/-- Where nothing is to come, the reader is at the end of the source. -/
theorem current_eq (hat : At source reader past []) :
    reader.current = { kind := .eof, span := endSpan source } := by
  have hlast := getLast?_answersOf source
  rw [hat.answers, List.getLast?_concat] at hlast
  exact Except.ok.inj (Option.some.inj hlast)

theorem getLast?_rest (hat : At source reader past rest) (hne : rest ≠ []) :
    rest.getLast? = some (.ok { kind := .eof, span := endSpan source }) := by
  obtain ⟨next, more, rfl⟩ := List.exists_cons_of_ne_nil hne
  have hlast := getLast?_answersOf source
  rwa [hat.answers, List.getLast?_append_cons, List.getLast?_cons_cons] at hlast

/-- All that an advance can do: at the end nothing changes, elsewhere the reader goes on to
the next token and notes the errors before it. -/
theorem advance_cases (hat : At source reader past rest) :
    (rest = [] ∧ reader.advance = reader) ∨
      ∃ (errors : List LexError) (token : Token) (more : List (Except LexError Token)),
        rest = errors.map .error ++ .ok token :: more ∧
        reader.advance.errors = reader.errors ++ errors.map .lexical ∧
        reader.advance.current = token ∧
        At source reader.advance (past ++ .ok reader.current :: errors.map .error) more := by
  by_cases hrest : rest = []
  · subst hrest
    have hpull : reader.stream.pull = ([], reader.current, reader.stream) := by
      rw [hat.stream, hat.current_eq]
      exact TokenStream.pull_of_ok rfl
    refine .inl ⟨rfl, ?_⟩
    simp only [advance, hpull, List.map_nil, List.append_nil]
  · have hlast := hat.getLast?_rest hrest
    obtain ⟨errors, token, more, hsplit⟩ := exists_errors_token hlast
    have hpull : reader.stream.pull =
        (errors, token, { pending := more.dropLast, endSpan := endSpan source }) := by
      rw [hat.stream]
      exact pull_dropLast hlast hsplit
    refine .inr ⟨errors, token, more, hsplit, ?_, ?_, ?_, ?_⟩
    · simp only [advance, hpull]
    · simp only [advance, hpull]
    · simp only [advance, hpull]
      rw [hat.answers, hsplit, List.append_assoc, List.cons_append]
    · simp only [advance, hpull]

theorem note (hat : At source reader past rest) (error : SyntaxError) :
    At source (reader.note error) past rest :=
  ⟨hat.answers, hat.stream⟩

theorem start_lt (hat : At source reader past rest) {result : Except LexError Token}
    (hmem : result ∈ rest) :
    reader.current.span.start < (Lexer.resultSpan result).start := by
  have hordered := answersOf_pairwise source
  rw [hat.answers] at hordered
  exact (List.pairwise_cons.mp (List.pairwise_append.mp hordered).2.1).1 result hmem

/-- The errors before the current token start before it. -/
theorem error_start_lt (hat : At source reader past rest) {error : LexError}
    (hmem : .error error ∈ past) : error.span.start < reader.current.span.start := by
  have hordered := answersOf_pairwise source
  rw [hat.answers] at hordered
  exact (List.pairwise_append.mp hordered).2.2 _ hmem _ List.mem_cons_self

/-- A reader whose token is the end of the source has passed everything else. -/
theorem past_eq_of_eof (hat : At source reader past rest)
    (heof : reader.current.kind = .eof) : past = lex source ∧ rest = [] := by
  have hrest : rest = [] := by
    by_contra hne
    -- the token would be one of the good tokens of the source
    have hinit : lex source = past ++ .ok reader.current :: rest.dropLast := by
      have hdrop := congrArg List.dropLast hat.answers
      rwa [answersOf, List.dropLast_concat, List.dropLast_append_of_ne_nil (List.cons_ne_nil _ _),
        List.dropLast_cons_of_ne_nil hne] at hdrop
    have hmem : reader.current ∈ goodTokens (lex source) := by
      rw [goodTokens, List.mem_filterMap]
      refine ⟨.ok reader.current, ?_, rfl⟩
      rw [hinit]
      exact List.mem_append_right past List.mem_cons_self
    exact goodTokens_ne_eof source _ hmem heof
  subst hrest
  exact ⟨(List.append_inj_left' hat.answers rfl).symm, rfl⟩

end At

/-- A new reader has passed the errors before the first token. -/
theorem at_ofSource (source : List Char) :
    ∃ (errors : List LexError) (rest : List (Except LexError Token)),
      At source (ofSource source) (errors.map .error) rest ∧
      (ofSource source).errors = errors.map .lexical := by
  have hlast := getLast?_answersOf source
  obtain ⟨errors, token, rest, hsplit⟩ := exists_errors_token hlast
  have hpull : (TokenStream.ofSource source).pull =
      (errors, token, { pending := rest.dropLast, endSpan := endSpan source }) := by
    have hpulled := pull_dropLast hlast hsplit
    rwa [answersOf, List.dropLast_concat] at hpulled
  refine ⟨errors, rest, ⟨?_, ?_⟩, ?_⟩
  · simp only [ofSource, hpull, hsplit]
  · simp only [ofSource, hpull]
  · simp only [ofSource, hpull]

/-! ## What a reader has noted -/

/-- One step keeps it true that the lexical errors noted are those passed. -/
theorem Step.lexical {reader later : LookAhead} (hstep : Step reader later)
    (hat : At source reader past rest)
    (hnoted : reader.errors.filterMap SourceError.lexical? = lexErrors past) :
    ∃ past rest, At source later past rest ∧
      later.errors.filterMap SourceError.lexical? = lexErrors past := by
  cases hstep with
  | advance =>
      rcases hat.advance_cases with ⟨_, hsame⟩ | ⟨errors, token, more, _, herrors, _, hafter⟩
      · rw [hsame]
        exact ⟨past, rest, hat, hnoted⟩
      · refine ⟨_, more, hafter, ?_⟩
        calc
          reader.advance.errors.filterMap SourceError.lexical? =
              lexErrors past ++ errors := by
            rw [herrors, List.filterMap_append, hnoted, filterMap_lexical?_map]
          _ = lexErrors (past ++ .ok reader.current :: errors.map .error) := by
            rw [lexErrors_append]
            exact congrArg (lexErrors past ++ ·) (lexErrors_map_error errors).symm
  | note error =>
      refine ⟨past, rest, hat.note error, ?_⟩
      rw [LookAhead.note, List.filterMap_append, hnoted]
      exact List.append_nil _

theorem Reads.lexical (hreads : Reads (ofSource source) reader) :
    ∃ past rest, At source reader past rest ∧
      reader.errors.filterMap SourceError.lexical? = lexErrors past := by
  induction hreads with
  | refl =>
      obtain ⟨errors, rest, hat, herrors⟩ := at_ofSource source
      refine ⟨_, rest, hat, ?_⟩
      rw [herrors, filterMap_lexical?_map, lexErrors_map_error]
  | tail _ hstep ih =>
      obtain ⟨past, rest, hat, hnoted⟩ := ih
      exact hstep.lexical hat hnoted

/-- However it was used, at the end of the source a reader has noted the lexical errors of
the source, all of them and no others, in order. -/
theorem Reads.lexical_of_eof (hreads : Reads (ofSource source) reader)
    (heof : reader.current.kind = .eof) :
    reader.errors.filterMap SourceError.lexical? = lexErrors (lex source) := by
  obtain ⟨past, rest, hat, hnoted⟩ := hreads.lexical
  rw [hnoted, (hat.past_eq_of_eof heof).1]

end LookAhead

end DeclCheck
