import DeclCheck.Proofs.Parser.Exactness
import DeclCheck.Proofs.Parser.Extension
import DeclCheck.Proofs.Parser.Relocate
import DeclCheck.Proofs.Token.Joined

/-!
# Source texts one below the other

A text that is read without an error leaves nothing behind but its items: no token, no
depth and no error.  So a text below it is read as if it stood alone, only further down.
-/

namespace DeclCheck

namespace Parser

/-! ## Errors at other places -/

/-- Errors come in the same order at other places, if the places stay in order. -/
theorem interleave_map_relocate {move : Span → Span}
    (horder : ∀ first second : Span,
      (move first).start < (move second).start ↔ first.start < second.start)
    (reports : List Report) :
    ∀ lexical : List LexError,
      interleave (lexical.map (LexError.relocate move)) (reports.map (Report.relocate move)) =
        (interleave lexical reports).map (SourceError.relocate move) := by
  have hlexical (errors : List LexError) :
      (errors.map (LexError.relocate move)).map SourceError.lexical =
        (errors.map SourceError.lexical).map (SourceError.relocate move) := by
    rw [List.map_map, List.map_map]
    rfl
  induction reports with
  | nil => exact hlexical
  | cons report rest ih =>
      intro lexical
      have hpassed : (fun error : LexError =>
            decide (error.span.start < (report.relocate move).raisedAt.start)) ∘
          LexError.relocate move =
          fun error => decide (error.span.start < report.raisedAt.start) := by
        funext error
        exact decide_eq_decide.mpr (horder error.span report.raisedAt)
      rw [List.map_cons, interleave, interleave, List.takeWhile_map, List.dropWhile_map, hpassed,
        ih, hlexical, List.map_append, List.map_cons]
      rfl

theorem start_below_lt (first : List Char) (one other : Span) :
    (Span.below first one).start < (Span.below first other).start ↔ one.start < other.start :=
  Nat.add_lt_add_iff_right

/-! ## A text without errors -/

theorem of_interleave_eq_nil {lexical : List LexError} {reports : List Report}
    (hnone : interleave lexical reports = []) : lexical = [] ∧ reports = [] := by
  cases reports with
  | nil => exact ⟨List.map_eq_nil_iff.mp hnone, rfl⟩
  | cons report rest =>
      rw [interleave] at hnone
      cases (List.append_eq_nil_iff.mp hnone).2

/-- A text without syntax errors is read until nothing is left of it. -/
theorem items_of_clean {source : List Char}
    (hclean : (items (goodTokens (lex source)) (endSpan source)).2.reports = []) :
    items (goodTokens (lex source)) (endSpan source) =
      ((parse source).program.items, { tokens := [], endSpan := endSpan source }) := by
  have hsyntax : (parse source).syntaxErrors = [] := by
    rw [syntaxErrors_parse, hclean, List.map_nil]
  have hloop := itemsWithin_accepts (derives_of_syntaxErrors_eq_nil hsyntax) (Nat.le_refl _)
    { tokens := goodTokens (lex source), endSpan := endSpan source }
  rcases hloop with hloop | ⟨report, more, hreports, _⟩
  · exact hloop
  · have hfiled : (items (goodTokens (lex source)) (endSpan source)).2.reports =
        report :: more := hreports
    rw [hclean] at hfiled
    cases hfiled

/-- Behind a text without syntax errors the parser starts anew. -/
theorem items_append_of_clean {source : List Char}
    (hclean : (items (goodTokens (lex source)) (endSpan source)).2.reports = [])
    (more : List Token) (stop : Span) :
    items (goodTokens (lex source) ++ more) stop =
      ((parse source).program.items ++ (items more stop).1, (items more stop).2) := by
  let start : ParserState := { tokens := goodTokens (lex source), endSpan := endSpan source }
  have hrun : itemsWithin start.tokens.length start =
      ((parse source).program.items, { tokens := [], endSpan := endSpan source }) :=
    items_of_clean hclean
  change itemsWithin (start.extend more stop).tokens.length (start.extend more stop) = _
  rw [itemsWithin_extend _ (congrArg (·.2.reports) hrun) (congrArg (·.2.tokens) hrun), hrun]
  rfl

/-- A text below one without errors is read as if it stood alone: the items of both come
one after the other, and the errors are its own, with all of its places further down. -/
theorem parse_below {first : List Char} (hclean : (parse first).errors = [])
    (second : List Char) :
    (parse (first ++ '\n' :: second)).program.items =
        (parse first).program.items ++
          (parse second).program.items.map (Item.relocate (Span.below first)) ∧
      (parse (first ++ '\n' :: second)).errors =
        (parse second).errors.map (SourceError.relocate (Span.below first)) := by
  obtain ⟨hlexical, hreports⟩ := of_interleave_eq_nil hclean
  have hmove : Span.CoverHom (Span.below first) := Span.coverHom_down _ _
  have hread : items (goodTokens (lex (first ++ '\n' :: second)))
      (endSpan (first ++ '\n' :: second)) =
      ((parse first).program.items ++
          (parse second).program.items.map (Item.relocate (Span.below first)),
        (items (goodTokens (lex second)) (endSpan second)).2.relocate (Span.below first)) := by
    rw [goodTokens_append_newline hlexical, endSpan_append_newline,
      items_append_of_clean hreports, items_map_relocate hmove]
    rfl
  constructor
  · exact congrArg Prod.fst hread
  · simp only [parse, hread, lexErrors_append_newline hlexical]
    exact interleave_map_relocate (start_below_lt first) _ _

/-- A comment at the end of the first text ends with its line; an error in the second
text is where the second text is. -/
theorem parse_below_comment :
    let first := "int a;//".toList
    let second := "b=;\nc;".toList
    (parse first).errors = [] ∧
      (parse (first ++ '\n' :: second)).program.items =
        (parse first).program.items ++
          (parse second).program.items.map (Item.relocate (Span.below first)) ∧
      (parse (first ++ '\n' :: second)).errors =
        [.syntactic
          { cause := .mismatch .expression (.symbol .semicolon)
            span := { start := 11, stop := 12, line := 2, column := 3 } }] := by
  have hclean : (parse "int a;//".toList).errors = [] := by decide +kernel
  have herrors : (parse "b=;\nc;".toList).errors =
      [.syntactic
        { cause := .mismatch .expression (.symbol .semicolon)
          span := { start := 2, stop := 3, line := 1, column := 3 } }] := by
    decide +kernel
  have hbelow := parse_below hclean "b=;\nc;".toList
  rw [herrors] at hbelow
  exact ⟨hclean, hbelow⟩

end Parser

end DeclCheck
