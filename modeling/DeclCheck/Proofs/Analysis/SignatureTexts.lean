import DeclCheck.Proofs.Analysis.Duplicates
import DeclCheck.Proofs.Report.Positions
import DeclCheck.Proofs.Token.Words

/-!
# Signatures and their texts

A scope remembers signatures as a name with a list of types, while reports write them as
one text.  In a program that was read, names are identifiers and types are keywords.  No
parenthesis, comma or quote can be part of either, so two functions have the same text
exactly if they have the same signature.  It makes no difference which of the two is
remembered, and a complaint about a repeated function tells the signature it is about.
-/

namespace DeclCheck

/-! ## Texts of words -/

namespace Signature

/-- The name and the types are words. -/
structure IsWorded (signature : Signature) : Prop where
  name : Lexer.IsWord signature.name.toList
  types : ∀ type ∈ signature.types, Lexer.IsWord type.toList

theorem toList_text (signature : Signature) :
    signature.text.toList = signature.name.toList ++ '(' ::
      ([',', ' '].intercalate (signature.types.map String.toList) ++ [')']) := by
  have hparts : signature.text =
      signature.name ++ ("(" ++ (String.intercalate ", " signature.types ++ ")")) := by
    simp only [text, String.append_assoc]
    rfl
  simp [hparts, String.toList_intercalate]

theorem message_duplicateFunction (signature : Signature) :
    (Finding.duplicateFunction signature).message =
      "function '" ++ (signature.name ++ ("' is already defined with the same " ++
        ("parameter list '" ++ (signature.text ++ "'")))) := by
  change "function '" ++ signature.name ++ "' is already defined with the same " ++
    ("parameter list '" ++ signature.text ++ "'") = _
  simp only [String.append_assoc]

theorem stops_after_name (rest : String) :
    Lexer.Stops Lexer.isWordChar ("' is already defined with the same " ++ rest).toList := by
  have hquote : "' is already defined with the same ".toList.head? = some '\'' := by decide
  rw [String.toList_append, Lexer.Stops, List.head?_append, hquote]
  rintro c ⟨⟩
  decide

section Told

variable {first second : Signature} (hfirst : first.IsWorded) (hsecond : second.IsWorded)
include hfirst hsecond

/-- The name ends at the parenthesis, and each type at a comma or at the end. -/
theorem eq_of_text_eq (htext : first.text = second.text) : first = second := by
  have hchars := congrArg String.toList htext
  rw [toList_text, toList_text] at hchars
  obtain ⟨hname, hrest⟩ := hfirst.name.append_inj hsecond.name
    (Lexer.stops_cons (by decide) _) (Lexer.stops_cons (by decide) _) hchars
  have hlists := List.append_cancel_right (List.cons.inj hrest).2
  have htypes : first.types.map String.toList = second.types.map String.toList :=
    Lexer.intercalate_inj (by decide) (List.forall_mem_map.mpr hfirst.types)
      (List.forall_mem_map.mpr hsecond.types) hlists
  have hsame : first.types = second.types :=
    List.map_injective_iff.mpr (fun _ _ => String.toList_inj.mp) htypes
  calc
    first = ⟨first.name, first.types⟩ := rfl
    _ = ⟨second.name, second.types⟩ := by rw [String.toList_inj.mp hname, hsame]

theorem text_eq_iff : first.text = second.text ↔ first = second :=
  ⟨eq_of_text_eq hfirst hsecond, congrArg text⟩

/-- The name ends at the quote, and the text is all that is left. -/
theorem message_eq_iff :
    (Finding.duplicateFunction first).message = (Finding.duplicateFunction second).message ↔
      first = second := by
  refine ⟨fun hmessage => ?_, fun hsame => by rw [hsame]⟩
  rw [message_duplicateFunction, message_duplicateFunction] at hmessage
  have hchars := congrArg String.toList ((String.append_right_inj _).mp hmessage)
  rw [String.toList_append, String.toList_append (s := second.name)] at hchars
  obtain ⟨_, hrest⟩ := hfirst.name.append_inj hsecond.name (stops_after_name _)
    (stops_after_name _) hchars
  have hlists := (String.append_right_inj _).mp (String.toList_inj.mp hrest)
  have htexts := (String.append_left_inj _).mp ((String.append_right_inj _).mp hlists)
  exact eq_of_text_eq hfirst hsecond htexts

end Told

end Signature

/-! ## Functions of a program that was read -/

theorem isWorded_ofFunction {source : List Char} {function : FunctionDecl}
    (hmem : function ∈ (parse source).program.functions) :
    (Signature.ofFunction function).IsWorded := by
  have hread := Parser.functionRead_of_mem (fun _ => Parser.itemRead_of_parse) hmem
  constructor
  case name =>
    exact Lexer.isWord_of_identifier
      (List.forall_mem_map.mpr (fun _ => isSpelled_of_mem_goodTokens) _ hread.name)
  case types =>
    refine List.forall_mem_map.mpr fun param hparam => ?_
    obtain ⟨type, htype⟩ := hread.params param hparam
    rw [htype]
    exact Lexer.isWord_typeName type

/-! ## What a check complains of -/

/-- Keys that tell the same declarations apart have the same later occurrences. -/
theorem laterOccurrences_congr {α κ ι : Type} [DecidableEq κ] [DecidableEq ι] {key : α → κ}
    {other : α → ι} {decls : List α}
    (hkeys : ∀ first ∈ decls, ∀ second ∈ decls,
      key first = key second ↔ other first = other second) :
    laterOccurrences key decls = laterOccurrences other decls := by
  rw [laterOccurrences, laterOccurrences]
  congr 2
  funext place
  apply decide_eq_decide.mpr
  exact exists_congr fun earlier => and_congr_right fun _ =>
    hkeys _ (List.get_mem decls earlier) _ (List.get_mem decls place)

/-- The errors of the source text are no findings about the program. -/
theorem placedFindings_check (options : CheckOptions) (source : List Char)
    {kinds : List DiagnosticKind} (hkinds : ∀ kind ∈ kinds, kind.stage = .semantic) :
    (check options source).diagnostics.placedFindings kinds =
      ((options.kept ((parse source).program.filings options.callReach)).filter
        (Filing.isOf kinds)).map Filing.placed := by
  obtain ⟨first, hentries⟩ := entries_check options source
  have hsemantic := DiagnosticLog.semanticFindings_addSourceErrors (parse source).errors {}
  have hnone := List.filter_eq_nil_iff.mp (List.map_eq_nil_iff.mp hsemantic)
  have herrors : (if options.drops ((parse source).program.filings options.callReach) then []
      else (DiagnosticLog.addSourceErrors {} (parse source).errors).entries).filter
        (·.kind ∈ kinds) = [] := by
    split
    · rfl
    · refine List.filter_eq_nil_iff.mpr fun entry hentry hkind => hnone entry hentry ?_
      exact decide_eq_true (hkinds entry.kind (of_decide_eq_true hkind))
  rw [DiagnosticLog.placedFindings, hentries, List.filter_append, herrors, List.nil_append]
  exact Filing.map_filter_numbered (· ∈ kinds) (fun kind message span => (kind, message, span))
    _ first

/-- The declarations come before all calls, so that only a reset drops what is filed about
them. -/
theorem filter_kept_filings (options : CheckOptions) (program : Program)
    {kinds : List DiagnosticKind} (hkinds : ∀ kind ∈ itemKinds, kind ∉ kinds) :
    (options.kept (program.filings options.callReach)).filter (Filing.isOf kinds) =
      if options.drops (program.filings options.callReach) then []
      else (program.filings options.callReach).filter (Filing.isOf kinds) := by
  have hitems := itemFilings_isOf program options.callReach
  cases hreset : options.resetOnUndefinedCall with
  | false =>
      have hkept := filter_isOf_eq_nil hkinds fun filing hmem =>
        hitems filing (options.mem_of_mem_kept hmem)
      rw [options.drops_of_not_reset hreset, if_neg Bool.false_ne_true, Program.filings,
        options.kept_append_of_not_call hreset (declarationFilings_not_call program),
        List.filter_append, List.filter_append, hkept, filter_isOf_eq_nil hkinds hitems]
  | true =>
      rw [CheckOptions.drops, hreset, Bool.true_and]
      rcases firstCall_cases (program.filings options.callReach) with
        hnone | ⟨before, call, after, hfilings, hbefore, hcall⟩
      · have hany : (program.filings options.callReach).any Filing.isUndefinedCall = false := by
          simpa using hnone
        rw [options.kept_of_no_call hnone, hany, if_neg Bool.false_ne_true]
      · have hkind : call.finding.kind = .undefinedCall := of_decide_eq_true hcall
        have hother : call.isOf kinds = false := by
          rw [Filing.isOf, hkind]
          exact decide_eq_false (hkinds _ (by decide))
        rw [hfilings, options.kept_of_call hbefore hcall, if_pos hreset]
        simp [hcall, hother]

/-- What is recorded of a function whose signature is taken. -/
def FunctionDecl.blame (function : FunctionDecl) : DiagnosticKind × String × Option Span :=
  (.duplicateFunction, (Finding.duplicateFunction (Signature.ofFunction function)).message,
    some function.span)

theorem placedFindings_duplicateFunction (options : CheckOptions) (source : List Char) :
    (check options source).diagnostics.placedFindings [.duplicateFunction] =
      if options.drops ((parse source).program.filings options.callReach) then []
      else (laterOccurrences Signature.ofFunction (parse source).program.functions).map
        FunctionDecl.blame := by
  rw [placedFindings_check options source (by decide), filter_kept_filings _ _ (by decide),
    filter_duplicateFunction_filings]
  split
  · rfl
  · exact List.map_map

/-- The entry says that the signature of the function is taken. -/
def Diagnostic.Blames (entry : Diagnostic) (function : FunctionDecl) : Prop :=
  entry.kind = .duplicateFunction ∧ entry.span = some function.span

instance (entry : Diagnostic) (function : FunctionDecl) : Decidable (entry.Blames function) :=
  inferInstanceAs (Decidable (_ ∧ _))

/-- The region of an entry tells the function, and so its wording. -/
theorem message_of_blames {options : CheckOptions} {source : List Char} {entry : Diagnostic}
    {function : FunctionDecl} (hfunction : function ∈ (parse source).program.functions)
    (hentry : entry ∈ (check options source).diagnostics.entries)
    (hblames : entry.Blames function) :
    entry.message = (Finding.duplicateFunction (Signature.ofFunction function)).message := by
  obtain ⟨hkind, hspan⟩ := hblames
  have hplaced : (entry.kind, entry.message, entry.span) ∈
      (check options source).diagnostics.placedFindings [.duplicateFunction] := by
    refine List.mem_map_of_mem (List.mem_filter.mpr ⟨hentry, ?_⟩)
    exact decide_eq_true (List.mem_singleton.mpr hkind)
  rw [placedFindings_duplicateFunction] at hplaced
  split at hplaced
  · cases hplaced
  · obtain ⟨other, hother, hview⟩ := List.mem_map.mp hplaced
    obtain ⟨place, _, hget⟩ := List.mem_map.mp hother
    have hmem : other ∈ (parse source).program.functions := hget ▸ List.get_mem _ place
    have hregion : some other.span = some function.span :=
      (congrArg (·.2.2) hview).trans hspan
    have hsame : other = function := Item.function.inj
      (item_eq_of_span_eq (Program.mem_functions_iff.mp hmem)
        (Program.mem_functions_iff.mp hfunction) (Option.some.inj hregion))
    rw [← hsame]
    exact (congrArg (·.2.1) hview).symm

/-- In a program that was read, signatures are as good as their texts.  The functions that a
check complains of are those whose text is the text of an earlier one, unless an undefined
call made it drop all complaints, and equal wordings are about equal signatures. -/
theorem check_blames_repeated_texts (options : CheckOptions) (source : List Char) :
    let functions := (parse source).program.functions
    let log := (check options source).diagnostics
    (∀ first ∈ functions, ∀ second ∈ functions,
      (Signature.ofFunction first = Signature.ofFunction second ↔
        (Signature.ofFunction first).text = (Signature.ofFunction second).text)) ∧
    log.placedFindings [.duplicateFunction] =
      (if options.resetOnUndefinedCall = true ∧
          ∃ entry ∈ log.entries, entry.kind = .undefinedCall then []
        else (laterOccurrences (fun function => (Signature.ofFunction function).text)
          functions).map FunctionDecl.blame) ∧
    ∀ first ∈ functions, ∀ second ∈ functions,
      ∀ entry ∈ log.entries, ∀ other ∈ log.entries, entry.Blames first → other.Blames second →
        (entry.message = other.message ↔
          Signature.ofFunction first = Signature.ofFunction second) := by
  intro functions log
  have hkeys : ∀ first ∈ functions, ∀ second ∈ functions,
      (Signature.ofFunction first = Signature.ofFunction second ↔
        (Signature.ofFunction first).text = (Signature.ofFunction second).text) :=
    fun first hfirst second hsecond =>
      (Signature.text_eq_iff (isWorded_ofFunction hfirst) (isWorded_ofFunction hsecond)).symm
  refine ⟨hkeys, ?_, ?_⟩
  · rw [placedFindings_duplicateFunction, laterOccurrences_congr hkeys]
    simp only [drops_iff]
    rfl
  · intro first hfirst second hsecond entry hentry other hother hblames hblamed
    rw [message_of_blames hfirst hentry hblames, message_of_blames hsecond hother hblamed]
    exact Signature.message_eq_iff (isWorded_ofFunction hfirst) (isWorded_ofFunction hsecond)

/-- The same types in another order are another signature, and names of parameters make no
difference. -/
theorem check_blames_repeated_texts_overloads :
    let source := ("int f(int a,float b)\x7b\x7dint f(float a,int b)\x7b\x7d" ++
      "int f(int x,float y)\x7b\x7dvoid f(float x,int y)\x7b\x7d").toList
    let functions := (parse source).program.functions
    let log := (check {} source).diagnostics
    ∃ first ∈ functions, ∃ second ∈ functions, ∃ entry ∈ log.entries, ∃ other ∈ log.entries,
      entry.Blames first ∧ other.Blames second ∧ entry.message ≠ other.message ∧
        Signature.ofFunction first ≠ Signature.ofFunction second ∧
        (Signature.ofFunction first).text ≠ (Signature.ofFunction second).text := by
  intro source functions log
  have hblamed : ∃ first ∈ functions, ∃ second ∈ functions,
      ∃ entry ∈ log.entries, ∃ other ∈ log.entries,
        entry.Blames first ∧ other.Blames second ∧ entry.message ≠ other.message := by
    decide +kernel
  obtain ⟨first, hfirst, second, hsecond, entry, hentry, other, hother, hblames, hblamed,
    hmessage⟩ := hblamed
  obtain ⟨htexts, _, hmessages⟩ := check_blames_repeated_texts {} source
  have hsignature : Signature.ofFunction first ≠ Signature.ofFunction second := by
    intro hsame
    exact hmessage ((hmessages first hfirst second hsecond entry hentry other hother hblames
      hblamed).mpr hsame)
  have htext : (Signature.ofFunction first).text ≠ (Signature.ofFunction second).text :=
    fun hsame => hsignature ((htexts first hfirst second hsecond).mpr hsame)
  exact ⟨first, hfirst, second, hsecond, entry, hentry, other, hother, hblames, hblamed,
    hmessage, hsignature, htext⟩

end DeclCheck
