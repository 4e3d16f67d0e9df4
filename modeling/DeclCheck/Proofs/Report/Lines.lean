import DeclCheck.Proofs.Analysis.Recorded
import DeclCheck.Proofs.Parser.Contents
import DeclCheck.Proofs.Token.Lines
import DeclCheck.ReportFile

/-!
# Lines of the report

The report on a source has one line for each diagnostic, with one exception.  All
that a message may quote, be it a token, a name, a list of types or the text of an
initial value, fits on one line; but a comment that is never closed is quoted as a
whole, with the line breaks in it.
-/

namespace DeclCheck

/-! ## Quoted texts -/

theorem TypeName.oneLine_spelling (name : TypeName) : OneLine name.spelling := by
  cases name <;> decide

theorem oneLine_toString (number : Nat) : OneLine (toString number) := by
  intro hmem
  have hdigit : '\n'.isDigit = true :=
    Nat.isDigit_of_mem_toDigits (by decide) (by decide) (Nat.toList_repr ▸ hmem)
  cases hdigit

namespace Parser

section Tokens

variable {tokens : List Token} (hspelled : ∀ token ∈ tokens, token.kind.IsSpelled)
include hspelled

theorem NamedAmong.oneLine {name : String} (hname : NamedAmong tokens name) :
    OneLine name :=
  (List.forall_mem_map.mpr hspelled _ hname).oneLine_spelling

theorem ReadAmong.oneLine_lexemes {expr : Expr} (hread : ReadAmong tokens expr) :
    ∀ lexeme ∈ expr.lexemes, OneLine lexeme := by
  obtain ⟨phrase, hphrase, hderives⟩ := hread.phrase
  intro lexeme hmem
  rw [hderives.lexemes_eq, List.mem_map] at hmem
  obtain ⟨token, htoken, rfl⟩ := hmem
  exact (hspelled token (hphrase.subset htoken)).oneLine_spelling

theorem ReadAmong.oneLine_text {expr : Expr} (hread : ReadAmong tokens expr) :
    OneLine expr.text :=
  oneLine_join (hread.oneLine_lexemes hspelled)

theorem ReadAmong.oneLine_callee {expr : Expr} (hread : ReadAmong tokens expr)
    {name : String} (hname : expr.callee? = some name) : OneLine name := by
  cases expr with
  | call span callee args =>
      cases hname
      apply hread.oneLine_lexemes hspelled
      rw [Expr.lexemes]
      exact List.mem_cons_self
  | _ => cases hname

/-- A syntax error that comes up among the tokens fits on one line. -/
theorem oneLine_message_of_arises {endSpan : Span} {error : SyntaxError}
    (harises : error.Arises tokens endSpan) : OneLine error.message := by
  rw [SyntaxError.message]
  cases harises with
  | tooDeep hmem construct =>
      dsimp only
      cases construct <;> decide
  | invalidTarget hphrase hexpr =>
      dsimp only
      decide
  | @mismatch token hmem wanted =>
      have hwanted : OneLine wanted.shown := by
        cases wanted with
        | symbol mark => cases mark <;> decide
        | _ => decide
      have hfound : OneLine token.kind.shown := by
        rcases List.mem_append.mp hmem with hmem | hend
        · exact (hspelled token hmem).oneLine_shown
        · have hkind : token.kind = .eof := by rw [List.mem_singleton.mp hend]
          rw [hkind]
          decide
      simp only [oneLine_append]
      exact ⟨⟨⟨by decide, hwanted⟩, by decide⟩, hfound⟩

end Tokens

end Parser

/-! ## Findings -/

/-- The texts of the program that a finding quotes. -/
def Finding.quotes : Finding → List String
  | duplicateFunction signature => signature.name :: signature.types
  | duplicateGlobal name => [name]
  | typeMismatch type text => [type, text]
  | shadowedParameter name function => [name, function]
  | duplicateLocal name function => [name, function]
  | undefinedCall name => [name]

theorem Signature.oneLine_text {signature : Signature} (hname : OneLine signature.name)
    (htypes : ∀ type ∈ signature.types, OneLine type) : OneLine signature.text := by
  have hlist := oneLine_intercalate (show OneLine ", " by decide) htypes
  simp only [Signature.text, oneLine_append]
  exact ⟨⟨⟨hname, by decide⟩, hlist⟩, by decide⟩

/-- The wording of a finding adds no line break to what it quotes. -/
theorem Finding.oneLine_message {finding : Finding}
    (hquotes : ∀ text ∈ finding.quotes, OneLine text) : OneLine finding.message := by
  unfold message
  cases finding with
  | duplicateFunction signature =>
      simp only [quotes, List.forall_mem_cons] at hquotes
      obtain ⟨hname, htypes⟩ := hquotes
      simp only [oneLine_append]
      exact ⟨⟨⟨by decide, hname⟩, by decide⟩,
        ⟨⟨by decide, Signature.oneLine_text hname htypes⟩, by decide⟩⟩
  | duplicateGlobal name | undefinedCall name =>
      simp only [quotes, List.forall_mem_singleton] at hquotes
      simp only [oneLine_append]
      exact ⟨⟨by decide, hquotes⟩, by decide⟩
  | typeMismatch type text =>
      simp only [quotes, List.forall_mem_cons] at hquotes
      obtain ⟨htype, htext, _⟩ := hquotes
      simp only [oneLine_append]
      exact ⟨⟨⟨⟨by decide, htype⟩, by decide⟩, htext⟩, by decide⟩
  | shadowedParameter name function =>
      simp only [quotes, List.forall_mem_cons] at hquotes
      obtain ⟨hname, hfunction, _⟩ := hquotes
      simp only [oneLine_append]
      exact ⟨⟨⟨⟨⟨by decide, hname⟩, by decide⟩, hfunction⟩, by decide⟩, by decide⟩
  | duplicateLocal name function =>
      simp only [quotes, List.forall_mem_cons] at hquotes
      obtain ⟨hname, hfunction, _⟩ := hquotes
      simp only [oneLine_append]
      exact ⟨⟨⟨by decide, hname⟩, by decide⟩, ⟨⟨by decide, hfunction⟩, by decide⟩⟩

namespace Parser

section Filings

variable {tokens : List Token} (hspelled : ∀ token ∈ tokens, token.kind.IsSpelled)
include hspelled

theorem VariableRead.oneLine_valueFilings {decl : VariableDecl}
    (hdecl : VariableRead tokens decl) :
    ∀ filing ∈ decl.valueFilings, OneLine filing.finding.message := by
  intro filing hmem
  rw [VariableDecl.valueFilings] at hmem
  split at hmem
  · rename_i value hinit
    split at hmem
    · cases hmem
    · obtain ⟨type, htype⟩ := hdecl.type
      have hvalue : ReadAmong tokens value := by
        apply hdecl.init
        rw [hinit]
        exact List.mem_singleton_self value
      rw [List.mem_singleton.mp hmem]
      apply Finding.oneLine_message
      simp only [Finding.quotes, List.forall_mem_cons]
      exact ⟨htype ▸ type.oneLine_spelling, hvalue.oneLine_text hspelled,
        List.forall_mem_nil _⟩
  · cases hmem

theorem VariableRead.oneLine_globalFilings {decl : VariableDecl}
    (hdecl : VariableRead tokens decl) (repeated : Bool) :
    ∀ filing ∈ decl.globalFilings repeated, OneLine filing.finding.message := by
  intro filing hmem
  rcases List.mem_append.mp hmem with hmem | hmem
  · rw [eq_of_mem_ite hmem]
    apply Finding.oneLine_message
    rw [Finding.quotes, List.forall_mem_singleton]
    exact hdecl.name.oneLine hspelled
  · exact hdecl.oneLine_valueFilings hspelled filing hmem

theorem FunctionRead.oneLine_signatureFilings {function : FunctionDecl}
    (hfunction : FunctionRead tokens function) (repeated : Bool) :
    ∀ filing ∈ function.signatureFilings repeated, OneLine filing.finding.message := by
  intro filing hmem
  rw [eq_of_mem_ite hmem]
  apply Finding.oneLine_message
  rw [Finding.quotes, List.forall_mem_cons]
  constructor
  · exact hfunction.name.oneLine hspelled
  · intro text htext
    obtain ⟨param, hparam, rfl⟩ := List.mem_map.mp htext
    obtain ⟨type, htype⟩ := hfunction.params param hparam
    rw [htype]
    exact type.oneLine_spelling

theorem FunctionRead.oneLine_bodyFilings {function : FunctionDecl}
    (hfunction : FunctionRead tokens function) :
    ∀ filing ∈ function.bodyFilings, OneLine filing.finding.message := by
  intro filing hmem
  obtain ⟨flagged, hflagged, hfiling⟩ := List.mem_flatMap.mp hmem
  have hdecl := hfunction.body.declared flagged.1 (mem_of_mem_flagRepeats hflagged)
  have hquotes : ∀ text ∈ [flagged.1.name, function.name], OneLine text := by
    rw [List.forall_mem_cons, List.forall_mem_singleton]
    exact ⟨hdecl.name.oneLine hspelled, hfunction.name.oneLine hspelled⟩
  rcases List.mem_append.mp hfiling with hfiling | hfiling
  · rw [eq_of_mem_ite hfiling]
    exact Finding.oneLine_message hquotes
  · rw [eq_of_mem_ite hfiling]
    exact Finding.oneLine_message hquotes

theorem ReadAmong.oneLine_callFiling {site node : Expr} (hsite : ReadAmong tokens site)
    {reach : CallReach} (hnode : node ∈ site.examined reach) {defined : String → Bool}
    {filing : Filing} (hfiling : callFiling? defined node = some filing) :
    OneLine filing.finding.message := by
  obtain ⟨name, hname, rfl⟩ := Option.map_eq_some_iff.mp hfiling
  apply Finding.oneLine_message
  rw [Finding.quotes, List.forall_mem_singleton]
  exact (hsite.within (Expr.within_of_mem_examined hnode)).oneLine_callee hspelled
    (Option.filter_eq_some_iff.mp hname).1

theorem ItemRead.oneLine_filings {item : Item} (hitem : ItemRead tokens item)
    (reach : CallReach) (defined : String → Bool) :
    ∀ filing ∈ item.filings reach defined, OneLine filing.finding.message := by
  intro filing hmem
  rcases List.mem_append.mp hmem with hmem | hmem
  · cases item with
    | function decl =>
        simp only [Item.function?, Option.toList_some, List.flatMap_singleton] at hmem
        exact FunctionRead.oneLine_bodyFilings hspelled hitem filing hmem
    | _ => cases hmem
  · obtain ⟨node, hnode, hfiling⟩ := List.mem_filterMap.mp hmem
    obtain ⟨site, hsite, hexamined⟩ := List.mem_flatMap.mp hnode
    exact (hitem.sites site hsite).oneLine_callFiling hspelled hexamined hfiling

/-- Nothing that is filed about a program has a line break in its message. -/
theorem oneLine_filings {program : Program}
    (hitems : ∀ item ∈ program.items, ItemRead tokens item) (reach : CallReach) :
    ∀ filing ∈ program.filings reach, OneLine filing.finding.message := by
  intro filing hmem
  rcases List.mem_append.mp hmem with hmem | hmem
  · rcases List.mem_append.mp hmem with hmem | hmem
    · obtain ⟨flagged, hflagged, hfiling⟩ := List.mem_flatMap.mp hmem
      exact (functionRead_of_mem hitems
        (mem_of_mem_flagRepeats hflagged)).oneLine_signatureFilings hspelled _ _ hfiling
    · obtain ⟨flagged, hflagged, hfiling⟩ := List.mem_flatMap.mp hmem
      exact (variableRead_of_mem hitems
        (mem_of_mem_flagRepeats hflagged)).oneLine_globalFilings hspelled _ _ hfiling
  · obtain ⟨item, hitem, hfiling⟩ := List.mem_flatMap.mp hmem
    exact (hitems item hitem).oneLine_filings hspelled reach _ filing hfiling

end Filings

end Parser

/-! ## Errors of the source text -/

theorem LexError.oneLine_message_iff (error : LexError) :
    OneLine error.message ↔ OneLine error.text := by
  have hopening : OneLine "unexpected character '" := by decide
  have hclosing : OneLine "'" := by decide
  unfold message
  rw [oneLine_append, oneLine_append]
  exact (and_iff_left hclosing).trans (and_iff_right hopening)

/-- Syntax errors never need more than one line. -/
theorem oneLine_errors_iff (source : List Char) :
    (∀ error ∈ (parse source).errors, OneLine error.message) ↔
      ∀ error ∈ lexErrors (lex source), OneLine error.text := by
  have hreports : ∀ report ∈
      (Parser.items (goodTokens (lex source)) (endSpan source)).2.reports,
      OneLine report.error.message := by
    intro report hmem
    apply Parser.oneLine_message_of_arises fun _ => isSpelled_of_mem_goodTokens
    exact Parser.arises_of_mem_reports hmem
  rw [Parser.forall_mem_errors_iff]
  simp only [SourceError.message, LexError.oneLine_message_iff]
  exact and_iff_left hreports

/-! ## Diagnostics -/

theorem Diagnostic.oneLine_place (entry : Diagnostic) : OneLine entry.place := by
  have hline : OneLine (toString "line " ++ toString entry.line) := by
    rw [oneLine_append]
    exact ⟨by decide, oneLine_toString _⟩
  unfold place
  split
  · split
    · exact hline
    · rw [oneLine_append, oneLine_append]
      exact ⟨⟨hline, by decide⟩, oneLine_toString _⟩
  · exact hline

/-- Around its message a diagnostic has no line break. -/
theorem Diagnostic.oneLine_text_iff (entry : Diagnostic) :
    OneLine entry.text ↔ OneLine entry.message := by
  have hstage : OneLine entry.kind.stage.shown := by
    cases entry.kind.stage <;> decide
  unfold text
  simp only [oneLine_append]
  exact and_iff_right ⟨⟨⟨⟨by decide, hstage⟩, by decide⟩, entry.oneLine_place⟩, by decide⟩

/-- All messages fit on a line, unless an error of the lexer that does not is kept. -/
theorem oneLine_entries_iff (options : CheckOptions) (source : List Char) :
    (∀ entry ∈ (check options source).diagnostics.entries, OneLine entry.message) ↔
      options.drops ((parse source).program.filings options.callReach) = true ∨
        ∀ error ∈ lexErrors (lex source), OneLine error.text := by
  obtain ⟨first, hentries⟩ := entries_check options source
  have hfiled : ∀ entry ∈ Filing.numbered first
      (options.kept ((parse source).program.filings options.callReach)),
      OneLine entry.message := by
    intro entry hmem
    obtain ⟨filing, hfiling, number, rfl⟩ := Filing.exists_of_mem_numbered hmem
    apply Parser.oneLine_filings (fun _ => isSpelled_of_mem_goodTokens)
      (fun _ => Parser.itemRead_of_parse) options.callReach filing
    exact options.mem_of_mem_kept hfiling
  have hrecorded :
      (∀ entry ∈ (DiagnosticLog.addSourceErrors {} (parse source).errors).entries,
        OneLine entry.message) ↔
      ∀ error ∈ lexErrors (lex source), OneLine error.text := by
    rw [← oneLine_errors_iff, ← List.forall_mem_map (f := Diagnostic.message),
      DiagnosticLog.messages_addSourceErrors, List.map_nil, List.nil_append,
      List.forall_mem_map]
  rw [hentries, List.forall_mem_append, and_iff_left hfiled]
  cases options.drops ((parse source).program.filings options.callReach) with
  | true =>
      rw [if_pos rfl]
      exact iff_of_true (List.forall_mem_nil _) (.inl rfl)
  | false =>
      rw [if_neg Bool.false_ne_true, hrecorded]
      exact (or_iff_right Bool.false_ne_true).symm

/-! ## The report -/

theorem length_splitOn (mark : Char) (text : List Char) :
    (text.splitOn mark).length = text.count mark + 1 := by
  induction text with
  | nil => rfl
  | cons c rest ih =>
      rw [List.splitOn_cons_eq_if_modifyHead, List.count_cons]
      split
      · rw [List.length_cons, ih]
      · rw [List.length_modifyHead, ih, Nat.add_zero]

/-- Behind every line stands a line break, the last one included. -/
theorem lines_eq_intercalate (lines : List (List Char)) :
    lines.flatMap (· ++ ['\n']) = ['\n'].intercalate (lines ++ [[]]) := by
  induction lines with
  | nil => rfl
  | cons line rest ih =>
      rw [List.flatMap_cons, ih, List.cons_append,
        List.intercalate_cons_of_ne_nil (List.append_ne_nil_of_right_ne_nil _ (by simp))]

/-- A text of lines is divided into them. -/
theorem splitOn_lines {lines : List (List Char)} (hlines : ∀ line ∈ lines, '\n' ∉ line) :
    (lines.flatMap (· ++ ['\n'])).splitOn '\n' = lines ++ [[]] := by
  rw [lines_eq_intercalate]
  apply List.splitOn_intercalate
  · rw [List.forall_mem_append]
    exact ⟨hlines, by simp⟩
  · simp

namespace ReportFile

theorem toList_diagnosticLines (entries : List Diagnostic) :
    (String.join (diagnosticLines entries)).toList =
      entries.flatMap fun entry => entry.text.toList ++ ['\n'] := by
  rw [String.toList_join, diagnosticLines, List.flatMap_map]
  simp only [String.toList_append]
  rfl

/-- Every diagnostic brings the line break after it and those in its text. -/
theorem count_diagnosticLines (entries : List Diagnostic) :
    (String.join (diagnosticLines entries)).toList.count '\n' =
      entries.length + (entries.flatMap (·.text.toList)).count '\n' := by
  rw [toList_diagnosticLines]
  induction entries with
  | nil => rfl
  | cons entry rest ih =>
      rw [List.flatMap_cons, List.flatMap_cons, List.count_append, List.count_append,
        List.count_append, ih, List.length_cons, List.count_singleton_self]
      omega

theorem count_diagnosticLines_eq_length_iff (entries : List Diagnostic) :
    (String.join (diagnosticLines entries)).toList.count '\n' = entries.length ↔
      ∀ entry ∈ entries, OneLine entry.text := by
  rw [count_diagnosticLines, Nat.add_eq_left, List.count_eq_zero, List.mem_flatMap]
  simp only [not_exists, not_and]
  rfl

/-- The lines of the report are the diagnostics exactly if these fit on a line. -/
theorem splitOn_diagnosticLines_iff (entries : List Diagnostic) :
    (String.join (diagnosticLines entries)).toList.splitOn '\n' =
        entries.map (·.text.toList) ++ [[]] ↔
      ∀ entry ∈ entries, OneLine entry.text := by
  constructor
  · intro hsplit
    have hlength := congrArg List.length hsplit
    rw [length_splitOn, List.length_append, List.length_map] at hlength
    exact (count_diagnosticLines_eq_length_iff entries).mp (Nat.add_right_cancel hlength)
  · intro hlines
    have hsplit := splitOn_lines (List.forall_mem_map.mpr hlines)
    rwa [List.flatMap_map, ← toList_diagnosticLines] at hsplit

end ReportFile

/-- The report has one line for each diagnostic, and its lines are the diagnostics,
exactly if no comment of several lines is left open, or if a reset has dropped that
error. -/
theorem diagnosticLines_check_iff (options : CheckOptions) (source : List Char) :
    let entries := (check options source).diagnostics.entries
    let report := (String.join (ReportFile.diagnosticLines entries)).toList
    let fits := (∀ error ∈ lexErrors (lex source),
        Lexer.IsOpenComment error.text.toList → OneLine error.text) ∨
      options.resetOnUndefinedCall = true ∧ ∃ entry ∈ entries, entry.kind = .undefinedCall
    (report.count '\n' = entries.length ↔ fits) ∧
      (report.splitOn '\n' = entries.map (·.text.toList) ++ [[]] ↔ fits) := by
  intro entries report fits
  have hcomments : (∀ error ∈ lexErrors (lex source), OneLine error.text) ↔
      ∀ error ∈ lexErrors (lex source),
        Lexer.IsOpenComment error.text.toList → OneLine error.text := by
    constructor
    · exact fun hall error hmem _ => hall error hmem
    · intro hopen error hmem
      rcases oneLine_or_isOpenComment hmem with hline | ⟨hcomment, _⟩
      · exact hline
      · exact hopen error hmem hcomment
  have hfits : (∀ entry ∈ entries, OneLine entry.text) ↔ fits := by
    simp only [Diagnostic.oneLine_text_iff, entries, oneLine_entries_iff, drops_iff, hcomments]
    exact or_comm
  exact ⟨(ReportFile.count_diagnosticLines_eq_length_iff entries).trans hfits,
    (ReportFile.splitOn_diagnosticLines_iff entries).trans hfits⟩

/-- A comment left open before a line break is one diagnostic on two lines. -/
theorem diagnosticLines_openComment :
    let entries := (check {} "/*\n".toList).diagnostics.entries
    let report := (String.join (ReportFile.diagnosticLines entries)).toList
    entries.length = 1 ∧ report.count '\n' = 2 ∧
      report.splitOn '\n' ≠ entries.map (·.text.toList) ++ [[]] := by
  decide +kernel

/-- Errors of all stages, one of them about a comment left open on the last line, take
one line each.  A reset leaves one line although the open comment runs on. -/
theorem diagnosticLines_check_several :
    let source := "int x=1.5;int x;x=@;f();/*".toList
    let entries := (check {} source).diagnostics.entries
    let reset := { resetOnUndefinedCall := true : CheckOptions }
    let cut := (check reset "f();/*\n".toList).diagnostics.entries
    entries.length = 6 ∧
      (String.join (ReportFile.diagnosticLines entries)).toList.count '\n' =
        entries.length ∧
      cut.length = 1 ∧
      (String.join (ReportFile.diagnosticLines cut)).toList.count '\n' = cut.length := by
  intro source entries reset cut
  have hlines : ∀ error ∈ lexErrors (lex source), OneLine error.text := by decide +kernel
  have hcall : ∃ entry ∈ cut, entry.kind = .undefinedCall := by decide +kernel
  exact ⟨by decide +kernel,
    (diagnosticLines_check_iff {} source).1.mpr
      (.inl fun error hmem _ => hlines error hmem),
    by decide +kernel,
    (diagnosticLines_check_iff reset _).1.mpr (.inr ⟨rfl, hcall⟩)⟩

end DeclCheck
