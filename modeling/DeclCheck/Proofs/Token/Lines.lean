import DeclCheck.Proofs.Token.Sequences

/-!
# Texts of one line

No lexeme holds a line break, so what names a token fits on one line.  Of the texts
that are no token, only one kind may run over several lines: a comment that is never
closed, which takes the whole rest of the source.
-/

namespace DeclCheck

/-- The text has no line break. -/
def OneLine (text : String) : Prop :=
  '\n' ∉ text.toList

instance (text : String) : Decidable (OneLine text) :=
  inferInstanceAs (Decidable ('\n' ∉ text.toList))

@[simp]
theorem oneLine_append {left right : String} :
    OneLine (left ++ right) ↔ OneLine left ∧ OneLine right := by
  rw [OneLine, String.toList_append, List.mem_append, not_or]
  exact Iff.rfl

theorem oneLine_join {parts : List String} (hparts : ∀ part ∈ parts, OneLine part) :
    OneLine (String.join parts) := by
  intro hmem
  rw [String.toList_join, List.mem_flatMap] at hmem
  obtain ⟨part, hpart, hnewline⟩ := hmem
  exact hparts part hpart hnewline

theorem oneLine_intercalate {separator : String} (hseparator : OneLine separator)
    {parts : List String} (hparts : ∀ part ∈ parts, OneLine part) :
    OneLine (String.intercalate separator parts) := by
  induction parts with
  | nil =>
      rw [String.intercalate_nil]
      decide
  | cons part rest ih =>
      rw [List.forall_mem_cons] at hparts
      by_cases hrest : rest = []
      · rw [hrest, String.intercalate_singleton]
        exact hparts.1
      · rw [String.intercalate_cons_of_ne_nil hrest, oneLine_append, oneLine_append]
        exact ⟨⟨hparts.1, hseparator⟩, ih hparts.2⟩

namespace Lexer

/-! ## Lexemes -/

theorem not_mem_of_all {belongs : Char → Bool} {c : Char} (hc : belongs c = false)
    {text : List Char} (hall : ∀ d ∈ text, belongs d = true) : c ∉ text := by
  intro hmem
  rw [hall c hmem] at hc
  cases hc

section Characters

variable {c : Char} {text : List Char} (hword : isWordChar c = false)
include hword

theorem IsDigits.not_mem (hdigits : IsDigits text) : c ∉ text :=
  not_mem_of_all (isDigit_of_not_wordChar hword) hdigits.all

theorem IsExponent.not_mem (hsign : c ≠ '+' ∧ c ≠ '-') (hexponent : IsExponent text) :
    c ∉ text := by
  have hmark : ∀ {mark : Char}, mark = 'e' ∨ mark = 'E' → c ≠ mark := by
    rintro mark (rfl | rfl) rfl <;> exact absurd hword (by decide)
  cases hexponent with
  | absent => exact List.not_mem_nil
  | unsigned hletter hdigits => simp [hmark hletter, hdigits.not_mem hword]
  | signed hletter hplus hdigits =>
      rcases hplus with rfl | rfl <;> simp [hmark hletter, hsign, hdigits.not_mem hword]

theorem IsFraction.not_mem (hsign : c ≠ '+' ∧ c ≠ '-') (hpoint : c ≠ '.')
    (hfraction : IsFraction text) : c ∉ text := by
  cases hfraction with
  | intro hdigits hexponent =>
      simp [hpoint, hdigits.not_mem hword, hexponent.not_mem hword hsign]

/-- Only in a string there are characters that neither a word, a number nor a symbol is
made of. -/
theorem Lexeme.quoted_or_not_mem {kind : TokenKind} (hsign : c ≠ '+' ∧ c ≠ '-')
    (hpoint : c ≠ '.') (hmarks : ∀ mark : Symbol, c ∉ mark.chars)
    (hlexeme : Lexeme kind text) :
    (∃ run, IsQuotedRun run ∧ text = '"' :: (run ++ ['"']) ∧
      kind = .string (String.ofList text)) ∨ c ∉ text := by
  cases hlexeme with
  | word hstart hrest =>
      have hall : ∀ d ∈ _ :: _, isWordChar d = true :=
        List.forall_mem_cons.mpr ⟨isWordChar_of_isWordStart hstart, hrest⟩
      exact .inr (not_mem_of_all hword hall)
  | integer hdigits => exact .inr (hdigits.not_mem hword)
  | float hdigits hfraction =>
      refine .inr ?_
      simp [hdigits.not_mem hword, hfraction.not_mem hword hsign hpoint]
  | string hrun => exact .inl ⟨_, hrun, rfl, rfl⟩
  | symbol mark => exact .inr (hmarks mark)

end Characters

theorem IsQuotedRun.newline_not_mem {run : List Char} (hrun : IsQuotedRun run) :
    '\n' ∉ run := by
  induction hrun with
  | nil => exact List.not_mem_nil
  | plain _ _ hnewline _ ih => simp [hnewline.symm, ih]
  | escaped hnewline _ ih => simp [hnewline.symm, ih]

theorem Lexeme.newline_not_mem {kind : TokenKind} {text : List Char}
    (hlexeme : Lexeme kind text) : '\n' ∉ text := by
  have hmarks : ∀ mark : Symbol, '\n' ∉ mark.chars := by
    intro mark
    cases mark <;> decide
  rcases hlexeme.quoted_or_not_mem rfl (by decide) (by decide) hmarks with
    ⟨run, hrun, rfl, _⟩ | hline
  · simp [hrun.newline_not_mem]
  · exact hline

/-! ## Text that is no token -/

/-- The text opens a comment that it does not close. -/
structure IsOpenComment (text : List Char) : Prop where
  opens : ['/', '*'] <+: text
  unclosed : ¬ ['*', '/'] <:+: text.drop 2

theorem not_infix_of_commentLength {text : List Char} (hnone : commentLength text = none) :
    ¬ ['*', '/'] <:+: text := by
  induction text with
  | nil => decide
  | cons c rest ih =>
      rw [commentLength] at hnone
      split at hnone
      · cases hnone
      · rename_i hclose
        rw [List.infix_cons_iff, not_or]
        refine ⟨?_, ih (Option.map_eq_none_iff.mp hnone)⟩
        rintro ⟨more, hmore⟩
        cases hmore
        exact hclose ⟨rfl, rfl⟩

theorem newline_not_mem_scanQuoted {text : List Char} {length : Nat}
    (hscan : scanQuoted ('"' :: text) = (.unreadable, length)) :
    '\n' ∉ ('"' :: text).take length := by
  obtain ⟨run, more, rfl, hrun, hlength⟩ := exists_quotedRun text
  simp only [scanQuoted, List.drop_succ_cons, List.drop_zero, ← hlength] at hscan
  split at hscan
  · cases hscan
  · cases hscan
    rw [List.take_succ_cons, List.take_left]
    simp [hrun.newline_not_mem]

/-- Unreadable text has no line break, unless it is a comment without an end. -/
theorem unreadable_cases {text : List Char} {length : Nat}
    (hscan : scan text = (.unreadable, length)) :
    '\n' ∉ text.take length ∨ IsOpenComment text ∧ text.take length = text := by
  cases found_of_scan (ne_nil_of_scan hscan (by simp)) hscan with
  | @openComment body hopen =>
      exact .inr ⟨⟨⟨body, rfl⟩, not_infix_of_commentLength hopen⟩, List.take_length⟩
  | number hdigit hanswer => cases hanswer
  | quoted hanswer => exact .inl (newline_not_mem_scanQuoted hanswer)
  | @stray c rest hblank hstart hdigit hquote hmark =>
      have hnewline : '\n' ≠ c := by
        rintro rfl
        cases hblank
      exact .inl (by simpa using hnewline)

end Lexer

/-- A lexical error is about text of one line, or about a comment that is not closed
up to the end of the source. -/
theorem oneLine_or_isOpenComment {source : List Char} {error : LexError}
    (hmem : error ∈ lexErrors (lex source)) :
    OneLine error.text ∨
      Lexer.IsOpenComment error.text.toList ∧ error.text.toList <:+ source := by
  obtain ⟨result, hresult, herror⟩ := List.mem_filterMap.mp hmem
  obtain ⟨rest, hrest, hreads⟩ := Lexer.exists_readsAt_of_mem_lex hresult
  cases result with
  | ok token => cases herror
  | error own =>
      cases herror
      obtain ⟨hunreadable, htext⟩ := hreads
      have hscan : Lexer.scan rest = (.unreadable, (Lexer.scan rest).2) :=
        Prod.ext hunreadable rfl
      rw [OneLine, htext, String.toList_ofList]
      rcases Lexer.unreadable_cases hscan with hline | ⟨hopen, hwhole⟩
      · exact .inl hline
      · rw [hwhole]
        exact .inr ⟨hopen, hrest⟩

/-! ## Names of tokens -/

namespace TokenKind

variable {kind : TokenKind} (hspelled : kind.IsSpelled)
include hspelled

theorem IsSpelled.oneLine_spelling : OneLine kind.spelling :=
  Lexer.Lexeme.newline_not_mem hspelled

theorem IsSpelled.oneLine_shown : OneLine kind.shown := by
  have hspelling := hspelled.oneLine_spelling
  have hquoted : OneLine (toString "'" ++ toString kind.spelling ++ toString "'") := by
    simp only [oneLine_append]
    exact ⟨⟨by decide, hspelling⟩, by decide⟩
  unfold shown
  cases kind with
  | identifier | integer | float =>
      simp only [oneLine_append]
      exact ⟨⟨by decide, hspelling⟩, by decide⟩
  | string text =>
      simp only [oneLine_append]
      exact ⟨by decide, hspelling⟩
  | eof => decide
  | _ => exact hquoted

end TokenKind

end DeclCheck
