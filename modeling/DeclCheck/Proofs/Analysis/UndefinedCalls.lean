import DeclCheck.Proofs.Analysis.Recorded
import DeclCheck.Proofs.Grammar.Mentions
import DeclCheck.Proofs.Parser.Exactness
import Mathlib.Data.List.Basic

/-!
# Undefined calls in a source text

For a text without syntax errors the undefined calls can be told from the tokens
alone: they are the names before parentheses that head no function.  The parser,
the walk over the tree and the log report these, all of them and in the order of
the text.
-/

namespace DeclCheck

open DiagnosticLog

/-! ## What a check records -/

/-- Numbering keeps the messages and the spans of the undefined calls. -/
theorem calls_numbered (filings : List Filing) (id : Nat) :
    ((Filing.numbered id filings).filter (·.kind = .undefinedCall)).map
        (fun entry => (entry.message, entry.span)) =
      (filings.filter Filing.isUndefinedCall).map
        fun filing => (filing.finding.message, some filing.span) :=
  Filing.map_filter_numbered (· = .undefinedCall) (fun _ message span => (message, span))
    filings id

/-- The undefined calls that a check reports are those to be filed about the
program. -/
theorem calls_check {options : CheckOptions}
    (hstop : options.stopAtUndefinedCall = false)
    (hreset : options.resetOnUndefinedCall = false) (source : List Char) :
    ((check options source).diagnostics.entries.filter (·.kind = .undefinedCall)).map
        (fun entry => (entry.message, entry.span)) =
      (((parse source).program.filings options.callReach).filter
          Filing.isUndefinedCall).map
        fun filing => (filing.finding.message, some filing.span) := by
  have hsource := kind_ne_of_mem_addSourceErrors (parse source).errors {}
    (fun entry hmem => absurd hmem List.not_mem_nil)
  have hnone : (addSourceErrors {} (parse source).errors).entries.filter
      (·.kind = .undefinedCall) = [] :=
    List.filter_eq_nil_iff.mpr fun entry hmem => by simp [hsource entry hmem]
  obtain ⟨first, hentries⟩ := entries_check options source
  rw [hentries, options.drops_of_not_reset hreset, if_neg Bool.false_ne_true,
    options.kept_of_not_stop hstop hreset, List.filter_append, hnone, List.nil_append,
    calls_numbered]

/-! ## Undefined calls of a tree -/

/-- What is filed about a name before a parenthesis. -/
def Mention.filing? (defined : String → Bool) : Mention → Option Filing
  | .header _ => none
  | .call name span =>
      if defined name then none else span.map fun span => ⟨.undefinedCall name, span⟩

theorem bind_mention?_filing? (defined : String → Bool) (node : Expr) :
    node.mention?.bind (Mention.filing? defined) = callFiling? defined node := by
  rw [callFiling?, Expr.mention?]
  cases node.callee? with
  | none => rfl
  | some name =>
      cases hdefined : defined name <;>
        simp [Option.filter, Mention.filing?, hdefined]

theorem filter_call_eq_nil {filings : List Filing}
    (hfilings : ∀ filing ∈ filings, filing.isUndefinedCall = false) :
    filings.filter Filing.isUndefinedCall = [] :=
  List.filter_eq_nil_iff.mpr fun filing hmem => by
    rw [hfilings filing hmem]
    exact Bool.false_ne_true

theorem filter_call_itemFilings (defined : String → Bool) (item : Item) :
    (item.filings .deep defined).filter Filing.isUndefinedCall =
      item.mentions.filterMap (Mention.filing? defined) := by
  have hcalls : ∀ filing ∈ (examinedNodes .deep item.sites).filterMap
      (callFiling? defined), filing.isUndefinedCall = true := by
    intro filing hmem
    obtain ⟨node, _, hfiling⟩ := List.mem_filterMap.mp hmem
    exact isUndefinedCall_of_callFiling? hfiling
  have hheaders : (item.function?.toList.map fun function =>
      Mention.header function.name).filterMap (Mention.filing? defined) = [] := by
    cases item.function? <;> rfl
  rw [Item.filings, List.filter_append,
    filter_call_eq_nil (itemBodyFilings_not_call item), List.filter_eq_self.mpr hcalls,
    Item.mentions, List.filterMap_append, hheaders, examinedNodes,
    List.filterMap_flatMap, List.filterMap_flatMap]
  simp only [Expr.mentions, List.filterMap_filterMap, bind_mention?_filing?]
  rfl

/-- The undefined calls among the findings, in terms of what the tree mentions. -/
theorem filter_call_filings (program : Program) :
    (program.filings .deep).filter Filing.isUndefinedCall =
      (program.items.flatMap Item.mentions).filterMap
        (Mention.filing? program.definesFunction) := by
  rw [Program.filings, List.filter_append,
    filter_call_eq_nil (declarationFilings_not_call program), List.nil_append,
    List.filter_flatMap, List.filterMap_flatMap]
  simp only [filter_call_itemFilings]

theorem exists_of_mem_mentions {expr : Expr} {mention : Mention}
    (hmem : mention ∈ expr.mentions) :
    ∃ name span, mention = .call name (some span) := by
  obtain ⟨node, _, hnode⟩ := List.mem_filterMap.mp hmem
  obtain ⟨name, _, rfl⟩ := Option.map_eq_some_iff.mp hnode
  exact ⟨name, node.span, rfl⟩

theorem mem_itemMentions_cases {item : Item} {mention : Mention}
    (hmem : mention ∈ item.mentions) :
    (∃ function, item.function? = some function ∧ mention = .header function.name) ∨
      ∃ name span, mention = .call name (some span) := by
  rcases List.mem_append.mp hmem with hmem | hmem
  · obtain ⟨function, hfunction, rfl⟩ := List.mem_map.mp hmem
    exact .inl ⟨function, Option.mem_toList.mp hfunction, rfl⟩
  · obtain ⟨site, _, hmem⟩ := List.mem_flatMap.mp hmem
    exact .inr (exists_of_mem_mentions hmem)

theorem header_mem_mentions_iff {program : Program} {name : String} :
    .header name ∈ program.items.flatMap Item.mentions ↔
      program.definesFunction name = true := by
  rw [definesFunction_iff, List.mem_flatMap]
  constructor
  · rintro ⟨item, hitem, hmem⟩
    rcases mem_itemMentions_cases hmem with ⟨function, hfunction, hname⟩ | ⟨_, _, hcall⟩
    · exact ⟨function, List.mem_filterMap.mpr ⟨item, hitem, hfunction⟩,
        (Mention.header.inj hname).symm⟩
    · cases hcall
  · rintro ⟨function, hmem, rfl⟩
    obtain ⟨item, hitem, hfunction⟩ := List.mem_filterMap.mp hmem
    refine ⟨item, hitem, List.mem_append_left _ ?_⟩
    exact List.mem_map.mpr ⟨function, Option.mem_toList.mpr hfunction, rfl⟩

/-- Every call of a tree has a span. -/
theorem isSome_of_call_mem_mentions {program : Program} {name : String}
    {span : Option Span} (hmem : .call name span ∈ program.items.flatMap Item.mentions) :
    span.isSome = true := by
  obtain ⟨item, _, hmem⟩ := List.mem_flatMap.mp hmem
  rcases mem_itemMentions_cases hmem with ⟨_, _, hheader⟩ | ⟨_, _, hcall⟩
  · cases hheader
  · cases hcall
    rfl

/-! ## Undefined calls of a text -/

section Text

variable {source : List Char}

/-- Without syntax errors the tokens mention what the tree mentions. -/
theorem mentions_goodTokens (hclean : (parse source).syntaxErrors = []) :
    mentions false (goodTokens (lex source)) =
      (parse source).program.items.flatMap Item.mentions := by
  have hderives := Parser.derives_of_syntaxErrors_eq_nil hclean
  have hspells := Grammar.DerivesItems.spells hderives []
  rw [List.append_nil] at hspells
  exact hspells.trans (List.append_nil _)

theorem definesFunction_parse (hclean : (parse source).syntaxErrors = [])
    (name : String) :
    (parse source).program.definesFunction name =
      (namePairs false (goodTokens (lex source))).any fun other =>
        other.header && other.name = name := by
  rw [Bool.eq_iff_iff, ← header_mem_mentions_iff, ← mentions_goodTokens hclean, mentions,
    List.mem_map, List.any_eq_true]
  simp only [mention_eq_header_iff]

theorem isSome_closing (hclean : (parse source).syntaxErrors = []) {pair : NamePair}
    (hmem : pair ∈ namePairs false (goodTokens (lex source)))
    (hcall : pair.header = false) : pair.closing.isSome = true := by
  have hmention : pair.mention ∈ mentions false (goodTokens (lex source)) :=
    List.mem_map_of_mem hmem
  rw [NamePair.mention, hcall, mentions_goodTokens hclean] at hmention
  have hsome := isSome_of_call_mem_mentions hmention
  rwa [Option.isSome_map] at hsome

/-- One pair among the tokens against what is filed about it. -/
theorem filing?_mention (hclean : (parse source).syntaxErrors = []) {pair : NamePair}
    (hmem : pair ∈ namePairs false (goodTokens (lex source))) :
    (pair.mention.filing? (parse source).program.definesFunction).map
        (fun filing => (filing.finding.message, some filing.span)) =
      if (!pair.header && !(namePairs false (goodTokens (lex source))).any fun other =>
          other.header && other.name = pair.name) = true then
        some ((Finding.undefinedCall pair.name).message, pair.extent)
      else none := by
  rw [← definesFunction_parse hclean, ← map_cover_closing (goodTokens_inOrder source) hmem,
    NamePair.mention]
  cases hheader : pair.header with
  | true => rfl
  | false =>
      obtain ⟨closing, hclosing⟩ :=
        Option.isSome_iff_exists.mp (isSome_closing hclean hmem hheader)
      cases hdefined : (parse source).program.definesFunction pair.name <;>
        simp [Mention.filing?, hdefined, hclosing]

theorem map_filter_call_filings (hclean : (parse source).syntaxErrors = []) :
    (((parse source).program.filings .deep).filter Filing.isUndefinedCall).map
        (fun filing => (filing.finding.message, some filing.span)) =
      (undefinedPairs (namePairs false (goodTokens (lex source)))).map
        fun pair => ((Finding.undefinedCall pair.name).message, pair.extent) := by
  rw [filter_call_filings, ← mentions_goodTokens hclean, mentions, List.filterMap_map,
    List.map_filterMap, undefinedPairs, ← List.filterMap_eq_map, List.filterMap_filter]
  exact List.filterMap_congr fun pair hmem => filing?_mention hclean hmem

end Text

/-- In a text without syntax errors the undefined calls that a deep check reports
are, in order, the names before parentheses that are no headers and that no header
has.  Each is reported with its name and from there to its closing parenthesis. -/
theorem check_undefinedCalls_exact (source : List Char)
    (hclean : (parse source).syntaxErrors = []) :
    let undefined := undefinedPairs (namePairs false (goodTokens (lex source)))
    let reported :=
      (check { callReach := .deep, stopAtUndefinedCall := false,
               resetOnUndefinedCall := false } source).diagnostics.entries.filter
        (·.kind = .undefinedCall)
    reported.map (fun entry => (entry.message, entry.span)) =
        undefined.map (fun pair =>
          (s!"function '{pair.name}' is called but never defined", pair.extent)) ∧
      (∀ pair ∈ undefined, pair.closing.isSome = true) ∧
      (reported.filterMap Diagnostic.span).Pairwise fun first second =>
        first.start < second.start := by
  intro undefined reported
  have hreported : reported.map (fun entry => (entry.message, entry.span)) =
      undefined.map fun pair =>
        ((Finding.undefinedCall pair.name).message, pair.extent) :=
    (calls_check rfl rfl source).trans (map_filter_call_filings hclean)
  refine ⟨hreported, ?_, ?_⟩
  · intro pair hmem
    obtain ⟨hpair, hcall⟩ := List.mem_filter.mp hmem
    have hheader : pair.header = false := by
      simpa using (Bool.and_eq_true_iff.mp hcall).1
    exact isSome_closing hclean hpair hheader
  · have hspans : reported.filterMap Diagnostic.span =
        undefined.filterMap NamePair.extent := by
      have hseconds := congrArg (List.filterMap Prod.snd) hreported
      rwa [List.filterMap_map, List.filterMap_map] at hseconds
    rw [hspans]
    exact pairwise_extent_undefinedPairs (goodTokens_inOrder source) false

/-- Of three calls two are undefined, one of them inside the other. -/
theorem check_undefinedCalls_exact_nested :
    let source := "int f(){return g(f(),h());}".toList
    (parse source).syntaxErrors = [] ∧
      ((check { callReach := .deep, stopAtUndefinedCall := false,
                resetOnUndefinedCall := false } source).diagnostics.entries.filter
          (·.kind = .undefinedCall)).map (fun entry => (entry.message, entry.span)) =
        [("function 'g' is called but never defined",
            some { start := 15, stop := 25, line := 1, column := 16 }),
          ("function 'h' is called but never defined",
            some { start := 21, stop := 24, line := 1, column := 22 })] := by
  intro source
  have hclean : (parse source).syntaxErrors = [] := by decide +kernel
  refine ⟨hclean, (check_undefinedCalls_exact source hclean).1.trans ?_⟩
  decide +kernel

end DeclCheck
