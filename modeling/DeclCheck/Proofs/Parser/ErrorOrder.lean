import DeclCheck.Proofs.Grammar.Placement
import DeclCheck.Proofs.Parser.Contents
import DeclCheck.Proofs.Parser.Exactness
import DeclCheck.Proofs.Parser.LookAhead
import DeclCheck.Proofs.Parser.Progress

/-!
# Syntax errors come in the order of the source

An error is about the token at which the parser stands, or about a phrase that it has
just read, and after an error the parser moves on.  It stays where it is only in front of
a closing brace, which the block around it takes next, or at the end of the source.  So
every error starts behind those filed before it, except that several may be about the end
of the source.
-/

namespace DeclCheck

/-- The second offset is behind the first, or both are the last one. -/
def Precedes (last first second : Nat) : Prop :=
  first < second ∨ first = last ∧ second = last

theorem Precedes.mono {last first second third : Nat} (hprecedes : Precedes last first second)
    (hsecond : second ≤ third) (hlast : third ≤ last) : Precedes last first third := by
  rcases hprecedes with hlt | ⟨hfirst, hend⟩
  · exact .inl (Nat.lt_of_lt_of_le hlt hsecond)
  · exact .inr ⟨hfirst, Nat.le_antisymm hlast (hend ▸ hsecond)⟩

theorem Precedes.le {last first second : Nat} (hprecedes : Precedes last first second) :
    first ≤ second := by
  rcases hprecedes with hlt | ⟨hfirst, hend⟩
  · exact Nat.le_of_lt hlt
  · rw [hfirst, hend]

theorem precedes_last {last first : Nat} (hfirst : first ≤ last) : Precedes last first last := by
  rcases Nat.lt_or_eq_of_le hfirst with hlt | heq
  · exact .inl hlt
  · exact .inr ⟨heq, rfl⟩

/-- Where the next token starts. -/
def ParserState.position (state : ParserState) : Nat :=
  state.current.span.start

namespace Parser

open Grammar

variable {α β : Type} {state after : ParserState} {error : SyntaxError}

/-- The tokens left follow one another up to the end of the source, and so do the errors
filed so far. -/
structure InLine (state : ParserState) : Prop where
  order : InOrder 0 state.tokens
  before_end : ∀ token ∈ state.tokens, token.span.start < state.endSpan.start
  increasing : state.reports.Pairwise fun first second =>
    Precedes state.endSpan.start first.error.span.start second.error.span.start

/-- Whatever is filed next is behind what was filed. -/
structure Past (state : ParserState) : Prop extends InLine state where
  behind : ∀ report ∈ state.reports,
    Precedes state.endSpan.start report.error.span.start state.position

/-- The error is behind those filed before, and not behind the next token. -/
structure FailsAt (error : SyntaxError) (after : ParserState) : Prop
    extends InLine after where
  behind : ∀ report ∈ after.reports,
    Precedes after.endSpan.start report.error.span.start error.span.start
  reached : error.span.start ≤ after.position

/-- A place where reading goes on after an error.  Only a closing brace may be the token
that the last error is about. -/
structure Resumed (state : ParserState) : Prop extends InLine state where
  reached : ∀ report ∈ state.reports, report.error.span.start ≤ state.position
  past : state.current.kind ≠ .symbol .closeBrace → Past state

/-! ## Positions -/

theorem InLine.skip (hstate : InLine state) {left : List Token} (hleft : left <:+ state.tokens) :
    InLine { state with tokens := left } where
  order := hstate.order.sublist hleft.sublist
  before_end token hmem := hstate.before_end token (hleft.subset hmem)
  increasing := hstate.increasing

theorem InLine.position_le_end (hstate : InLine state) :
    state.position ≤ state.endSpan.start := by
  rw [ParserState.position, ParserState.current]
  cases htokens : state.tokens with
  | nil => exact Nat.le_refl _
  | cons token rest =>
      exact Nat.le_of_lt (hstate.before_end token (htokens ▸ List.mem_cons_self))

/-- Whoever takes the next token gets further. -/
theorem InLine.position_lt (hstate : InLine state) {token : Token} {rest left : List Token}
    (htokens : state.tokens = token :: rest) (hleft : left <:+ rest) :
    state.position < ParserState.position { state with tokens := left } := by
  have hhere : state.position = token.span.start := by
    rw [ParserState.position, ParserState.current, htokens]
  have hmem : token ∈ state.tokens := htokens ▸ List.mem_cons_self
  rw [hhere, ParserState.position, ParserState.current]
  cases left with
  | nil => exact hstate.before_end token hmem
  | cons next more =>
      have hpairwise := hstate.order.pairwise
      rw [htokens, List.pairwise_cons] at hpairwise
      calc
        token.span.start < token.span.stop := hstate.order.nonempty token hmem
        _ ≤ next.span.start := hpairwise.1 next (hleft.subset List.mem_cons_self)

theorem InLine.position_le (hstate : InLine state) {left : List Token}
    (hleft : left <:+ state.tokens) :
    state.position ≤ ParserState.position { state with tokens := left } := by
  cases htokens : state.tokens with
  | nil =>
      rw [htokens, List.suffix_nil] at hleft
      rw [hleft, ← htokens]
  | cons token rest =>
      rw [htokens] at hleft
      rcases List.suffix_cons_iff.mp hleft with rfl | hleft
      · rw [← htokens]
      · exact Nat.le_of_lt (hstate.position_lt htokens hleft)

theorem Past.skip (hstate : Past state) {left : List Token} (hleft : left <:+ state.tokens) :
    Past { state with tokens := left } where
  toInLine := hstate.toInLine.skip hleft
  behind report hmem := (hstate.behind report hmem).mono (hstate.position_le hleft)
    (hstate.toInLine.skip hleft).position_le_end

theorem Past.atDepth (hstate : Past state) (depth : Nat) : Past { state with depth := depth } :=
  ⟨⟨hstate.order, hstate.before_end, hstate.increasing⟩, hstate.behind⟩

theorem FailsAt.atDepth (herror : FailsAt error after) (depth : Nat) :
    FailsAt error { after with depth := depth } :=
  ⟨⟨herror.order, herror.before_end, herror.increasing⟩, herror.behind, herror.reached⟩

/-- An error about the next token. -/
theorem Past.failsAt (hstate : Past state) (herror : error.span = state.current.span) :
    FailsAt error state where
  toInLine := hstate.toInLine
  behind := by
    rw [herror]
    exact hstate.behind
  reached := by
    rw [herror]
    exact Nat.le_refl _

/-! ## Expressions -/

/-- After a run from the state all errors filed are behind, and if it fails, they are
behind its error. -/
def FilesFrom (state : ParserState) (parser : Parser α) : Prop :=
  match parser state with
  | .ok _ after => Past after
  | .error error after => FailsAt error after

/-- Errors that are behind stay behind, and an error that comes up is behind them. -/
def Files (parser : Parser α) : Prop :=
  ∀ state, Past state → FilesFrom state parser

section Runs

variable {parser : Parser α}

theorem FilesFrom.of_ok (hparser : FilesFrom state parser) {value : α}
    (hrun : parser state = .ok value after) : Past after := by
  rwa [FilesFrom, hrun] at hparser

theorem FilesFrom.of_error (hparser : FilesFrom state parser)
    (hrun : parser state = .error error after) : FailsAt error after := by
  rwa [FilesFrom, hrun] at hparser

theorem FilesFrom.bind {next : α → Parser β} (hparser : FilesFrom state parser)
    (hnext : ∀ value, Files (next value)) : FilesFrom state (parser >>= next) := by
  rw [FilesFrom]
  cases hrun : parser state with
  | ok value after =>
      rw [bind_of_ok next hrun]
      exact hnext value after (hparser.of_ok hrun)
  | error error after =>
      rw [bind_of_error next hrun]
      exact hparser.of_error hrun

theorem Files.bind {next : α → Parser β} (hparser : Files parser)
    (hnext : ∀ value, Files (next value)) : Files (parser >>= next) :=
  fun state hstate => (hparser state hstate).bind hnext

theorem spend_files (cost : Nat) (construct : Construct) : Files (spend cost construct) := by
  intro state hstate
  rw [FilesFrom]
  by_cases hdeep : state.depth + cost > nestingBudget
  · rw [spend_of_gt construct hdeep]
    exact hstate.failsAt rfl
  · rw [spend_of_le construct (Nat.le_of_not_gt hdeep)]
    exact hstate.atDepth _

theorem Files.keepingDepth (hparser : Files parser) : Files (keepingDepth parser) := by
  intro state hstate
  have hstart := hparser state hstate
  rw [FilesFrom, Parser.keepingDepth]
  cases hrun : parser state with
  | ok value after => exact (hstart.of_ok hrun).atDepth _
  | error error after => exact hstart.of_error hrun

theorem Files.budgeted (cost : Nat) (construct : Construct) (hparser : Files parser) :
    Files (budgeted cost construct parser) := by
  intro state hstate
  have hboth := (spend_files cost construct state hstate).bind fun _ => hparser
  rw [FilesFrom, budgeted_apply]
  cases hrun : (spend cost construct >>= fun _ => parser) state with
  | ok value after => exact (hboth.of_ok hrun).atDepth _
  | error error after => exact (hboth.of_error hrun).atDepth _

end Runs

theorem pure_files (value : α) : Files (pure value : Parser α) :=
  fun _ hstate => hstate

theorem files_combining : Combining Files where
  pure := pure_files
  bind := Files.bind
  peek _ hstate := hstate
  shift _ hstate := hstate.skip (List.tail_suffix _)
  reject _ _ hstate := hstate.failsAt rfl
  tooDeep _ hstate := hstate.failsAt rfl
  spend cost := spend_files cost .expression
  keepingDepth := Files.keepingDepth
  budgeted cost _ hparser := hparser.budgeted cost .expression
  commas helement hmore := by
    apply helement.bind
    intro first state hstate
    exact (hmore _).bind (fun rest => pure_files _) state hstate

/-- A phrase that was just read starts where the parser stood. -/
theorem failsAt_of_derives {cls : ExprClass} {phrase : List Token} {expr : Expr}
    (hstate : Past state) (hconsumed : Consumes phrase state after)
    (hderives : DerivesExpr cls phrase expr) :
    FailsAt { cause := .invalidTarget, span := expr.span } after := by
  have hprefix : phrase <+: state.tokens := ⟨after.tokens, hconsumed.tokens_eq.symm⟩
  have hleft : after.tokens <:+ state.tokens := ⟨phrase, hconsumed.tokens_eq.symm⟩
  have hplaced := hderives.placedOn (hstate.order.sublist hprefix.sublist)
  obtain ⟨first, hfirst, hstart, _⟩ := hplaced.spans.starts
  obtain ⟨rest, rfl⟩ := List.head?_eq_some_iff.mp hfirst
  have hposition : expr.span.start = state.position := by
    rw [ParserState.position, ParserState.current, hconsumed.tokens_eq]
    exact hstart
  rw [hconsumed.after_eq]
  refine ⟨hstate.toInLine.skip hleft, ?_, ?_⟩
  · rw [hposition]
    exact hstate.behind
  · rw [hposition]
    exact hstate.position_le hleft

theorem assignment_files (levels : Nat) (hexpression : Files (expressionWithin levels)) :
    Files (assignment (expressionWithin levels)) := by
  intro state hstate
  have hoperands := files_combining.operands hexpression state hstate
  rw [FilesFrom, assignment]
  cases hrun : binary (unary (primary (expressionWithin levels))) state with
  | error error after =>
      rw [bind_of_error _ hrun]
      exact hoperands.of_error hrun
  | ok left after =>
      have hafter := hoperands.of_ok hrun
      obtain ⟨phrase, hconsumed, hderives⟩ :=
        binary_reads (unaryWithin_reads (primary_reads (expressionWithin_reads levels)) _) hrun
      have htarget := failsAt_of_derives hstate hconsumed hderives
      rw [bind_of_ok _ hrun, bind_of_ok _ (at?_apply _ after)]
      by_cases hassign : after.current.kind = .symbol .assign
      · simp only [hassign, decide_true, if_true]
        cases left with
        | identifier start name =>
            exact files_combining.bind files_combining.shift
              (fun _ => hexpression.bind fun value => files_combining.pure _) after hafter
        | _ => exact htarget
      · simp only [hassign, decide_false]
        exact hafter

theorem files_compositional : Compositional Files :=
  ⟨files_combining, assignment_files⟩

/-! ## Recovery -/

/-- Reading goes on behind a semicolon, at a closing brace, or nowhere. -/
theorem resume_cases (tokens : List Token) :
    resume tokens = [] ∨
      (∃ brace rest, resume tokens = brace :: rest ∧ brace.kind = .symbol .closeBrace) ∨
      ∃ token rest, token :: rest <:+ tokens ∧ resume tokens = rest := by
  induction tokens with
  | nil => exact .inl rfl
  | cons token rest ih =>
      rw [resume]
      split
      · exact .inr (.inr ⟨token, rest, List.suffix_refl _, rfl⟩)
      · split
        · rename_i hbrace
          exact .inr (.inl ⟨token, rest, rfl, hbrace⟩)
        · rcases ih with hnone | hbrace | ⟨mark, left, hleft, hresume⟩
          · exact .inl hnone
          · exact .inr (.inl hbrace)
          · exact .inr (.inr ⟨mark, left, hleft.trans (List.suffix_cons _ _), hresume⟩)

theorem Past.resumed (hstate : Past state) : Resumed state :=
  ⟨hstate.toInLine, fun report hmem => (hstate.behind report hmem).le, fun _ => hstate⟩

/-- The error is filed, and from where reading goes on it is behind. -/
theorem FailsAt.resumed (herror : FailsAt error after) :
    Resumed { after with
      tokens := resume after.tokens
      reports := after.reports ++ [{ error := error, raisedAt := after.current.span }] } := by
  have hleft := resume_suffix after.tokens
  have hskipped := herror.toInLine.skip hleft
  have hbehind : ∀ report ∈
      after.reports ++ [{ error := error, raisedAt := after.current.span }],
      report.error.span.start ≤ after.position := by
    rw [List.forall_mem_append, List.forall_mem_singleton]
    exact ⟨fun report hmem => Nat.le_trans (herror.behind report hmem).le herror.reached,
      herror.reached⟩
  have hline : InLine { after with
      tokens := resume after.tokens
      reports := after.reports ++ [{ error := error, raisedAt := after.current.span }] } := by
    refine ⟨hskipped.order, hskipped.before_end, List.pairwise_append.mpr
      ⟨herror.increasing, List.pairwise_singleton _ _, ?_⟩⟩
    intro first hfirst second hsecond
    rw [List.mem_singleton.mp hsecond]
    exact herror.behind first hfirst
  refine ⟨hline, fun report hmem => Nat.le_trans (hbehind report hmem)
    (herror.position_le hleft), fun hbrace => ⟨hline, fun report hmem => ?_⟩⟩
  have hreport := hbehind report hmem
  rcases resume_cases after.tokens with
    hnone | ⟨brace, rest, hresume, hkind⟩ | ⟨token, rest, htokens, hresume⟩
  · have hend := precedes_last (Nat.le_trans hreport herror.position_le_end)
    simp only [hnone]
    exact hend
  · rw [ParserState.current] at hbrace
    simp only [hresume] at hbrace
    exact absurd hkind hbrace
  · have hlt := (herror.toInLine.skip htokens).position_lt rfl (List.suffix_refl rest)
    have hle := herror.position_le htokens
    rw [← hresume] at hlt
    exact .inl (Nat.lt_of_le_of_lt hreport (Nat.lt_of_le_of_lt hle hlt))

theorem recover_resumed {parser : Parser α} (hparser : Files parser) (hstate : Past state) :
    Resumed (recover parser state).2 := by
  have hstart := hparser state hstate
  rw [recover]
  cases hrun : parser state with
  | ok value after => exact (hstart.of_ok hrun).resumed
  | error error after => exact (hstart.of_error hrun).resumed

theorem statementsWithin_resumed {statement : Parser Stmt} (hstatement : Files statement)
    (bound : Nat) :
    ∀ state, Resumed state → Resumed (statementsWithin statement bound state).2 := by
  induction bound with
  | zero => exact fun _ hstate => hstate
  | succ bound ih =>
      intro state hstate
      rw [statementsWithin]
      cases hend : atBlockEnd state with
      | true => exact hstate
      | false =>
          -- a round starts at no closing brace, so all errors are behind
          have hbrace : state.current.kind ≠ .symbol .closeBrace := by
            rw [atBlockEnd, Bool.or_eq_false_iff, decide_eq_false_iff_not] at hend
            exact hend.1
          exact ih _ (recover_resumed hstatement (hstate.past hbrace))

/-- The brace that ends a block is taken, and then all errors are behind. -/
theorem Resumed.skip_brace (hstate : Resumed state) {token : Token} {rest : List Token}
    (htokens : state.tokens = token :: rest) : Past { state with tokens := rest } where
  toInLine := hstate.toInLine.skip (htokens ▸ List.suffix_cons token rest)
  behind report hmem := .inl (Nat.lt_of_le_of_lt (hstate.reached report hmem)
    (hstate.position_lt htokens (List.suffix_refl rest)))

theorem Resumed.closeBrace (hstate : Resumed state) :
    FilesFrom state (symbol .closeBrace) := by
  rw [FilesFrom, symbol_apply]
  by_cases hbrace : state.current.kind = .symbol .closeBrace
  · obtain ⟨rest, htokens⟩ := exists_of_current_ne_eof (by rw [hbrace]; simp)
    rw [if_pos hbrace, htokens]
    exact hstate.skip_brace htokens
  · rw [if_neg hbrace]
    exact (hstate.past hbrace).failsAt rfl

theorem braced_files {statement : Parser Stmt} (hstatement : Files statement) :
    Files (braced statement) := by
  apply (files_combining.symbol _).bind
  intro start state hstate
  have hresumed := statementsWithin_resumed hstatement state.tokens.length state hstate.resumed
  exact hresumed.closeBrace.bind fun stop => files_combining.pure _

theorem files_recovering : Recovering Files where
  toCompositional := files_compositional
  blockTooDeep _ hstate := hstate.failsAt rfl
  braced _ hblock :=
    (braced_files (files_compositional.statement hblock)).budgeted constructCost .block

/-! ## Items -/

/-- At the top level a closing brace at which reading would go on is dropped. -/
theorem Resumed.dropCloseBrace (hstate : Resumed state) :
    Past { state with tokens := dropCloseBrace state.tokens } := by
  cases htokens : state.tokens with
  | nil =>
      have hpast := hstate.past (by rw [ParserState.current, htokens]; simp)
      exact hpast.skip (List.nil_suffix)
  | cons token rest =>
      rw [Parser.dropCloseBrace]
      split
      · exact hstate.skip_brace htokens
      · rename_i hbrace
        have hpast := hstate.past (by rw [ParserState.current, htokens]; exact hbrace)
        exact hpast.skip (htokens ▸ List.suffix_refl _)

theorem itemStep_past (hstate : Past state) : Past (itemStep state).2 := by
  have hstart := files_recovering.item state hstate
  rw [itemStep, recover]
  cases hrun : item state with
  | ok read after => exact hstart.of_ok hrun
  | error error after => exact (hstart.of_error hrun).resumed.dropCloseBrace

theorem itemsWithin_past (bound : Nat) :
    ∀ state, Past state → Past (itemsWithin bound state).2 := by
  induction bound with
  | zero => exact fun _ hstate => hstate
  | succ bound ih =>
      intro state hstate
      rw [itemsWithin]
      split
      · exact hstate
      · exact ih _ (itemStep_past hstate)

theorem past_start (source : List Char) :
    Past { tokens := goodTokens (lex source), endSpan := endSpan source } where
  order := goodTokens_inOrder source
  before_end _ hmem := start_lt_endSpan (mem_goodTokens.mp hmem)
  increasing := .nil
  behind _ hmem := by cases hmem

theorem past_items (source : List Char) :
    Past (items (goodTokens (lex source)) (endSpan source)).2 :=
  itemsWithin_past _ _ (past_start source)

/-! ## Sources -/

/-- Where each offset precedes the later ones, those before the last offset come first and
increase. -/
theorem exists_split_of_precedes {last : Nat} {errors : List SyntaxError}
    (hle : ∀ error ∈ errors, error.span.start ≤ last)
    (hprecedes : errors.Pairwise fun first second =>
      Precedes last first.span.start second.span.start) :
    ∃ early late, errors = early ++ late ∧
      early.Pairwise (fun first second => first.span.start < second.span.start) ∧
      (∀ error ∈ early, error.span.start < last) ∧
      ∀ error ∈ late, error.span.start = last := by
  induction errors with
  | nil => exact ⟨[], [], rfl, .nil, List.forall_mem_nil _, List.forall_mem_nil _⟩
  | cons error rest ih =>
      obtain ⟨hhere, hrest⟩ := List.forall_mem_cons.mp hle
      obtain ⟨hfirst, hpairwise⟩ := List.pairwise_cons.mp hprecedes
      rcases Nat.lt_or_eq_of_le hhere with hlt | heq
      · obtain ⟨early, late, rfl, hincreasing, hearly, hlate⟩ := ih hrest hpairwise
        refine ⟨error :: early, late, rfl, List.pairwise_cons.mpr ⟨?_, hincreasing⟩,
          List.forall_mem_cons.mpr ⟨hlt, hearly⟩, hlate⟩
        intro second hsecond
        rcases hfirst second (List.mem_append_left _ hsecond) with hbehind | ⟨hend, _⟩
        · exact hbehind
        · exact absurd hend (Nat.ne_of_lt hlt)
      · refine ⟨[], error :: rest, rfl, .nil, List.forall_mem_nil _,
          List.forall_mem_cons.mpr ⟨heq, fun second hsecond => ?_⟩⟩
        exact Nat.le_antisymm (hrest second hsecond) (heq ▸ (hfirst second hsecond).le)

/-- Only what is about the end of the source starts there. -/
theorem span_eq_endSpan_of_arises {source : List Char}
    (herror : error.Arises (goodTokens (lex source)) (endSpan source))
    (hstart : error.span.start = (endSpan source).start) : error.span = endSpan source := by
  have htoken : ∀ token ∈ withEnd (goodTokens (lex source)) (endSpan source),
      token.span.start = (endSpan source).start → token.span = endSpan source := by
    intro token hmem hend
    rcases List.mem_append.mp hmem with hmem | hmem
    · exact absurd hend (Nat.ne_of_lt (start_lt_endSpan (mem_goodTokens.mp hmem)))
    · rw [List.mem_singleton.mp hmem]
  cases herror with
  | mismatch hmem wanted => exact htoken _ hmem hstart
  | tooDeep hmem construct => exact htoken _ hmem hstart
  | invalidTarget hphrase hexpr =>
      have horder := (goodTokens_inOrder source).sublist hphrase.sublist
      obtain ⟨first, hfirst, _, _, _, _, hplace, _⟩ :=
        (hexpr.placedOn horder).spans.exists_tokens
      have hlt := start_lt_endSpan (mem_goodTokens.mp (hphrase.subset hfirst))
      exact absurd (hplace.symm.trans hstart) (Nat.ne_of_lt hlt)

end Parser

/-- The syntax errors of a source come in the order of the source.  No two of them start
at the same place, except that the last ones may all be about the end of the source. -/
theorem syntaxErrors_increase (source : List Char) :
    ∃ early late, (parse source).syntaxErrors = early ++ late ∧
      early.Pairwise (fun first second => first.span.start < second.span.start) ∧
      (∀ error ∈ early, error.span.start < byteLength source) ∧
      ∀ error ∈ late, error.span = endSpan source := by
  have hpast := Parser.past_items source
  have hend : (Parser.items (goodTokens (lex source)) (endSpan source)).2.endSpan =
      endSpan source := (Parser.items_answers _ _).1.endSpan_eq
  have hle : ∀ error ∈ (parse source).syntaxErrors,
      error.span.start ≤ byteLength source := by
    rw [Parser.syntaxErrors_parse, List.forall_mem_map]
    intro report hmem
    have hposition := Nat.le_trans (hpast.behind report hmem).le hpast.position_le_end
    rwa [hend] at hposition
  have hprecedes : (parse source).syntaxErrors.Pairwise fun first second =>
      Precedes (byteLength source) first.span.start second.span.start := by
    have hincreasing := hpast.increasing
    rw [hend] at hincreasing
    rw [Parser.syntaxErrors_parse, List.pairwise_map]
    exact hincreasing
  obtain ⟨early, late, herrors, hincreasing, hearly, hlate⟩ :=
    Parser.exists_split_of_precedes hle hprecedes
  refine ⟨early, late, herrors, hincreasing, hearly, fun error hmem => ?_⟩
  have hreported : error ∈ (parse source).syntaxErrors :=
    herrors ▸ List.mem_append_right early hmem
  rw [Parser.syntaxErrors_parse] at hreported
  obtain ⟨report, hreport, rfl⟩ := List.mem_map.mp hreported
  exact Parser.span_eq_endSpan_of_arises (Parser.arises_of_mem_reports hreport)
    (hlate _ hmem)

end DeclCheck
