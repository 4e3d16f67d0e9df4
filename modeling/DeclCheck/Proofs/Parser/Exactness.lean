import DeclCheck.Proofs.Grammar.Layout
import DeclCheck.Proofs.Parser.ProgramCompleteness
import DeclCheck.Proofs.Parser.ProgramSoundness
import DeclCheck.Proofs.Token.Order

/-!
# Reading a source text is exact

The syntax errors of a source text decide whether its good tokens are a program,
up to the nesting budget: without errors the tokens derive the program that was
read, and tokens that derive some program are read as that program or the first
error says that the nesting is too deep.
-/

namespace DeclCheck

/-- The syntax errors of a source text, in order. -/
def Parse.syntaxErrors (read : Parse) : List SyntaxError :=
  read.errors.filterMap fun
    | .syntactic error => some error
    | .lexical _ => none

namespace Parser

open Grammar

/-- Lexical errors come between the syntax errors and change nothing about
them. -/
theorem syntactic_interleave (reports : List Report) :
    ∀ lexical : List LexError,
      (interleave lexical reports).filterMap (fun
        | .syntactic error => some error
        | .lexical _ => none) = reports.map Report.error := by
  have hlexical : ∀ errors : List LexError,
      (errors.map SourceError.lexical).filterMap (fun
        | .syntactic error => some error
        | .lexical _ => none) = ([] : List SyntaxError) := by
    intro errors
    induction errors with
    | nil => rfl
    | cons error rest ih => exact ih
  induction reports with
  | nil => exact fun lexical => hlexical lexical
  | cons report rest ih =>
      intro lexical
      rw [interleave, List.filterMap_append, hlexical, List.nil_append,
        List.filterMap_cons, ih, List.map_cons]

theorem syntaxErrors_parse (source : List Char) :
    (parse source).syntaxErrors =
      (items (goodTokens (lex source)) (endSpan source)).2.reports.map Report.error :=
  syntactic_interleave _ _

/-- Without syntax errors, the tokens derive what was read, spans included. -/
theorem derives_of_syntaxErrors_eq_nil {source : List Char}
    (hclean : (parse source).syntaxErrors = []) :
    DerivesProgram (goodTokens (lex source)) (parse source).program := by
  rw [syntaxErrors_parse, List.map_eq_nil_iff] at hclean
  exact itemsWithin_of_clean _
    { tokens := goodTokens (lex source), endSpan := endSpan source } (Nat.le_refl _)
    (goodTokens_ne_eof source) hclean

theorem parse_of_derives {source : List Char} (program : Program)
    (hderives : DerivesProgram (goodTokens (lex source)) program) :
    ((parse source).syntaxErrors = [] ∧ (parse source).program = program) ∨
      ∃ error, (parse source).syntaxErrors.head? = some error ∧ error.IsTooDeep := by
  have hloop := itemsWithin_accepts hderives (Nat.le_refl _)
    { tokens := goodTokens (lex source), endSpan := endSpan source }
  rw [syntaxErrors_parse]
  rcases hloop with hloop | ⟨report, more, hreports, hdeep⟩
  · refine .inl ⟨?_, ?_⟩
    · exact congrArg (fun read => read.2.reports.map Report.error) hloop
    · exact congrArg (fun read => Program.mk read.1) hloop
  · refine .inr ⟨report.error, ?_, hdeep⟩
    have hhead := congrArg (fun reports => (reports.map Report.error).head?) hreports
    exact hhead

theorem message_of_isTooDeep {error : SyntaxError} (hdeep : error.IsTooDeep) :
    error.message = "expression nested too deeply" ∨
      error.message = "block nested too deeply" := by
  obtain ⟨construct, hcause⟩ := hdeep
  cases construct with
  | expression => exact .inl (by rw [SyntaxError.message, hcause]; rfl)
  | block => exact .inr (by rw [SyntaxError.message, hcause]; rfl)

/-- Reading is sound and complete for the grammar of token kinds. -/
theorem parse_exact (source : List Char) :
    ((parse source).syntaxErrors = [] →
      DerivesProgram ((goodTokens (lex source)).map Token.bare)
        (parse source).program.bare) ∧
    ∀ tree : Program,
      DerivesProgram ((goodTokens (lex source)).map Token.bare) tree →
      ((parse source).syntaxErrors = [] ∧ (parse source).program.bare = tree) ∨
        ∃ error, (parse source).syntaxErrors.head? = some error ∧
          (error.message = "expression nested too deeply" ∨
            error.message = "block nested too deeply") := by
  refine ⟨fun hclean => (derives_of_syntaxErrors_eq_nil hclean).bare, ?_⟩
  intro tree htree
  obtain ⟨items, hderives, hitems⟩ := htree.placed rfl
  have htree : (Program.mk items).bare = tree := congrArg Program.mk hitems
  rcases parse_of_derives ⟨items⟩ hderives with
    ⟨hclean, hprogram⟩ | ⟨error, hhead, hdeep⟩
  · exact .inl ⟨hclean, by rw [hprogram, htree]⟩
  · exact .inr ⟨error, hhead, message_of_isTooDeep hdeep⟩

/-- A difference groups to the left, and the assignment takes all of it. -/
theorem parse_exact_difference :
    (parse "x=1-y-2;".toList).syntaxErrors = [] ∧
      (parse "x=1-y-2;".toList).program.bare =
        ⟨[.expression {} (.assign {} "x" (.binary {} .sub
          (.binary {} .sub (.integer {} "1") (.identifier {} "y"))
          (.integer {} "2")))]⟩ := by
  have htokens : (goodTokens (lex "x=1-y-2;".toList)).map Token.bare =
      [⟨.identifier "x", {}⟩, ⟨.symbol .assign, {}⟩, ⟨.integer "1", {}⟩,
        ⟨.symbol .minus, {}⟩, ⟨.identifier "y", {}⟩, ⟨.symbol .minus, {}⟩,
        ⟨.integer "2", {}⟩, ⟨.symbol .semicolon, {}⟩] := by
    decide +kernel
  have hclean : (parse "x=1-y-2;".toList).syntaxErrors = [] := by
    decide +kernel
  have hone : DerivesExpr (.level .sum) [⟨.integer "1", {}⟩] (.integer {} "1") :=
    .ofOperand _ (.ofOperand _ (.ofPrimary (.integer {} "1")))
  have hsum := DerivesExpr.binary {} .sub
    (.binary {} .sub hone (.ofOperand _ (.ofPrimary (.identifier {} "y"))))
    (.ofOperand _ (.ofPrimary (.integer {} "2")))
  have hvalue : DerivesExpr .expression _ _ :=
    .ofChain (.ofOperand _ (.ofOperand _ (.ofOperand _ (.ofOperand _ hsum))))
  have hderives : DerivesItems _ _ :=
    .cons (.expression {} (.intro (.assign {} {} "x" hvalue))) .nil
  have hexact := (parse_exact "x=1-y-2;".toList).2
  rw [htokens] at hexact
  rcases hexact ⟨_⟩ hderives with hread | ⟨error, hhead, _⟩
  · exact hread
  · rw [hclean] at hhead
    cases hhead

end Parser

end DeclCheck
