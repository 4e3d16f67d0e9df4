import DeclCheck.Proofs.Analysis.Nodes
import DeclCheck.Proofs.Analysis.Recorded
import DeclCheck.Proofs.Parser.Contents
import DeclCheck.Proofs.Parser.Placement
import DeclCheck.Proofs.Token.Tiling
import Mathlib.Data.List.Nodup

/-!
# Every position is right

The spans of nodes and of diagnostics are regions of the source: they are cut between
characters and say the line and column at which they start.  Nodes have the spans of
tokens that stand together, the span of a node holds those of its children, and these
follow one another.  Diagnostics have the span of a token, of text that is no token, of a
phrase, of a node, or of the end of the source.
-/

namespace DeclCheck

/-- The offset falls between two characters of the source, or on one of its ends. -/
def IsBoundary (source : List Char) (offset : Nat) : Prop :=
  ∃ before after, source = before ++ after ∧ offset = byteLength before

/-- The span is a region of the source, cut between characters, and has the line and
column of its start. -/
structure Span.IsRegion (span : Span) (source : List Char) : Prop where
  start_le_stop : span.start ≤ span.stop
  stop_le : span.stop ≤ byteLength source
  start_boundary : IsBoundary source span.start
  stop_boundary : IsBoundary source span.stop
  position : (span.line, span.column) = (LineTable.ofText source).position span.start

/-- The node reaches from the start of a token to the end of a token.  Its children are
within it, one after the other. -/
structure Node.IsLocated (node : Node) (source : List Char) : Prop where
  starts : ∃ first ∈ goodTokens (lex source), node.span.start = first.span.start
  stops : ∃ last ∈ goodTokens (lex source), node.span.stop = last.span.stop
  start_lt_stop : node.span.start < node.span.stop
  region : node.span.IsRegion source
  children_within : ∀ child ∈ node.children,
    node.span.start ≤ child.span.start ∧ child.span.stop ≤ node.span.stop
  children_pairwise :
    node.children.Pairwise fun first second => first.span.stop ≤ second.span.start

/-! ## Tokens and errors -/

theorem isRegion_span {source before text after : List Char}
    (hsource : source = before ++ (text ++ after)) :
    ((LineTable.ofText source).span (byteLength before)
      (byteLength before + byteLength text)).IsRegion source where
  start_le_stop := Nat.le_add_right _ _
  stop_le := by
    rw [hsource, byteLength_append, byteLength_append]
    exact Nat.add_le_add_left (Nat.le_add_right _ _) _
  start_boundary := ⟨before, text ++ after, hsource, rfl⟩
  stop_boundary := ⟨before ++ text, after, by rw [hsource, List.append_assoc],
    (byteLength_append _ _).symm⟩
  position := rfl

theorem isRegion_of_mem_lex {source : List Char} {result : Except LexError Token}
    (hmem : result ∈ lex source) : (Lexer.resultSpan result).IsRegion source := by
  rw [Lexer.lex_eq_filterMap] at hmem
  obtain ⟨region, hregion, hresult⟩ := List.mem_filterMap.mp hmem
  obtain ⟨before, after, hsource, hspan, _⟩ := Lexer.cutAt_of_mem hregion
  rw [Lexer.resultSpan_of_result? hresult, hspan]
  exact isRegion_span hsource

theorem isRegion_of_mem_lexErrors {source : List Char} {error : LexError}
    (hmem : error ∈ lexErrors (lex source)) : error.span.IsRegion source := by
  obtain ⟨result, hresult, herror⟩ := List.mem_filterMap.mp hmem
  cases result with
  | ok token => cases herror
  | error own =>
      cases herror
      exact isRegion_of_mem_lex hresult

theorem isRegion_of_mem_goodTokens {source : List Char} {token : Token}
    (hmem : token ∈ goodTokens (lex source)) : token.span.IsRegion source :=
  isRegion_of_mem_lex (mem_goodTokens.mp hmem)

theorem isRegion_endSpan (source : List Char) : (endSpan source).IsRegion source :=
  isRegion_span (by rw [List.append_nil, List.append_nil] : source = source ++ ([] ++ []))

theorem isRegion_of_mem_withEnd {source : List Char} {token : Token}
    (hmem : token ∈ withEnd (goodTokens (lex source)) (endSpan source)) :
    token.span.IsRegion source := by
  rcases List.mem_append.mp hmem with hmem | hmem
  · exact isRegion_of_mem_goodTokens hmem
  · rw [List.mem_singleton.mp hmem]
    exact isRegion_endSpan source

/-! ## Nodes -/

/-- What tokens of the source span is a region of it. -/
theorem Spans.isRegion {source : List Char} {own : List Token} {span : Span}
    (hspans : Spans own span) (hown : own <:+: goodTokens (lex source)) :
    span.IsRegion source := by
  have horder := (goodTokens_inOrder source).sublist hown.sublist
  obtain ⟨first, hfirst, last, hlast, _, _, hstart, hstop, hline, hcolumn⟩ :=
    hspans.exists_tokens
  have hfirstRegion := isRegion_of_mem_goodTokens (hown.subset hfirst)
  have hlastRegion := isRegion_of_mem_goodTokens (hown.subset hlast)
  exact {
    start_le_stop := Nat.le_of_lt (hspans.start_lt_stop horder)
    stop_le := hstop ▸ hlastRegion.stop_le
    start_boundary := hstart ▸ hfirstRegion.start_boundary
    stop_boundary := hstop ▸ hlastRegion.stop_boundary
    position := by rw [hline, hcolumn, hstart, hfirstRegion.position] }

/-- A node of the program is placed on tokens of the source that stand together. -/
theorem exists_placed_of_hasNode {source : List Char} {node : Node}
    (hnode : (parse source).program.HasNode node) :
    ∃ own, own <:+: goodTokens (lex source) ∧ Placed own node := by
  obtain ⟨item, hitem, hwithin⟩ := hnode
  obtain ⟨tokens, htokens, hplaced⟩ :=
    (Parser.items_inside source).exists_placed (List.mem_map_of_mem hitem)
  obtain ⟨own, hown, hplacedNode⟩ := Placed.within hwithin hplaced
  exact ⟨own, hown.trans htokens, hplacedNode⟩

theorem isLocated_of_hasNode {source : List Char} {node : Node}
    (hnode : (parse source).program.HasNode node) : node.IsLocated source := by
  obtain ⟨own, hown, hplaced⟩ := exists_placed_of_hasNode hnode
  have horder := (goodTokens_inOrder source).sublist hown.sublist
  obtain ⟨first, hfirst, last, hlast, _, _, hstart, hstop, _⟩ := hplaced.spans.exists_tokens
  obtain ⟨hwithin, hpairwise⟩ := hplaced.children_within horder
  exact {
    starts := ⟨first, hown.subset hfirst, hstart⟩
    stops := ⟨last, hown.subset hlast, hstop⟩
    start_lt_stop := hplaced.spans.start_lt_stop horder
    region := hplaced.spans.isRegion hown
    children_within := hwithin
    children_pairwise := hpairwise }

/-- No two items take the same region. -/
theorem item_eq_of_span_eq {source : List Char} {first second : Item}
    (hfirst : first ∈ (parse source).program.items)
    (hsecond : second ∈ (parse source).program.items) (hspan : first.span = second.span) :
    first = second := by
  have hpairwise := List.pairwise_map.mp
    ((Parser.items_inside source).pairwise (goodTokens_inOrder source))
  have hnodup : ((parse source).program.items.map Item.span).Nodup := by
    refine List.pairwise_map.mpr (hpairwise.imp_of_mem fun {one other} hone _ hafter => ?_)
    have hnode : (parse source).program.HasNode (.item one) := ⟨one, hone, .self _⟩
    have hnonempty : one.span.start < one.span.stop :=
      (isLocated_of_hasNode hnode).start_lt_stop
    have happart : one.span.stop ≤ other.span.start := hafter
    intro hsame
    rw [← hsame] at happart
    exact absurd hnonempty (Nat.not_lt.mpr happart)
  exact List.inj_on_of_nodup_map hnodup hfirst hsecond hspan

/-! ## Diagnostics -/

theorem SyntaxError.Arises.isRegion {source : List Char} {error : SyntaxError}
    (harises : error.Arises (goodTokens (lex source)) (endSpan source)) :
    error.span.IsRegion source := by
  cases harises with
  | mismatch hmem wanted => exact isRegion_of_mem_withEnd hmem
  | tooDeep hmem construct => exact isRegion_of_mem_withEnd hmem
  | invalidTarget hphrase hexpr =>
      have horder := (goodTokens_inOrder source).sublist hphrase.sublist
      exact (hexpr.placedOn horder).spans.isRegion hphrase

theorem isRegion_of_mem_errors {source : List Char} :
    ∀ error ∈ (parse source).errors, error.span.IsRegion source := by
  rw [Parser.forall_mem_errors_iff]
  constructor
  · exact fun error hmem => isRegion_of_mem_lexErrors hmem
  · exact fun report hmem => (Parser.arises_of_mem_reports hmem).isRegion

theorem isRegion_of_mem_filings {source : List Char} {reach : CallReach} {filing : Filing}
    (hmem : filing ∈ (parse source).program.filings reach) : filing.span.IsRegion source := by
  obtain ⟨node, hnode, hspan⟩ := Program.exists_node_of_mem_filings hmem
  rw [hspan]
  exact (isLocated_of_hasNode hnode).region

/-- Whatever a check records has a span of its own, and is on the line of that span. -/
theorem exists_region_of_mem_check {options : CheckOptions} {source : List Char}
    {entry : Diagnostic} (hmem : entry ∈ (check options source).diagnostics.entries) :
    ∃ span, entry.span = some span ∧ entry.line = span.line ∧ span.IsRegion source := by
  obtain ⟨first, hentries⟩ := entries_check options source
  rw [hentries] at hmem
  rcases List.mem_append.mp hmem with hmem | hmem
  · split at hmem
    · cases hmem
    · rcases DiagnosticLog.exists_error_of_mem_addSourceErrors _ _ entry hmem with
        hmem | ⟨error, herror, _, hspan, hline⟩
      · cases hmem
      · exact ⟨error.span, hspan, hline, isRegion_of_mem_errors error herror⟩
  · obtain ⟨filing, hfiling, number, rfl⟩ := Filing.exists_of_mem_numbered hmem
    exact ⟨filing.span, rfl, rfl, isRegion_of_mem_filings (options.mem_of_mem_kept hfiling)⟩

/-- All positions are right, whatever errors a source has: those of the nodes of its
program, whose items follow one another, and under all options those of the
diagnostics. -/
theorem positions_right (source : List Char) :
    (∀ node, (parse source).program.HasNode node → node.IsLocated source) ∧
      ((parse source).program.items.Pairwise fun first second =>
        first.span.stop ≤ second.span.start) ∧
      ∀ options, ∀ entry ∈ (check options source).diagnostics.entries,
        ∃ span, entry.span = some span ∧ entry.line = span.line ∧ span.IsRegion source := by
  refine ⟨fun node hnode => isLocated_of_hasNode hnode, ?_, ?_⟩
  · exact List.pairwise_map.mp
      ((Parser.items_inside source).pairwise (goodTokens_inOrder source))
  · exact fun options entry hmem => exists_region_of_mem_check hmem

/-- A call in the body of a function, and a syntax error behind a character of two
bytes. -/
theorem positions_right_accent :
    let source := "int f() \x7b\n  return g(1);\n\x7d\né = 1;\n".toList
    let mark : Span := { start := 30, stop := 31, line := 4, column := 4 }
    (∃ node, (parse source).program.HasNode node ∧
      node.span = { start := 19, stop := 23, line := 2, column := 10 } ∧
      node.IsLocated source) ∧
      (∃ entry ∈ (check {} source).diagnostics.entries,
        entry.kind = .syntaxError ∧ entry.span = some mark ∧ entry.line = 4) ∧
      mark.IsRegion source := by
  intro source mark
  have hsites : (parse source).program.items.flatMap (fun item => item.sites.map Expr.span) =
      [{ start := 19, stop := 23, line := 2, column := 10 }] := by
    decide +kernel
  obtain ⟨item, hitem, hcall⟩ := List.mem_flatMap.mp (hsites ▸ List.mem_cons_self)
  obtain ⟨call, hsite, hspan⟩ := List.mem_map.mp hcall
  have hnode : (parse source).program.HasNode (.expr call) :=
    ⟨item, hitem, Node.within_of_hasSite (Item.mem_sites_iff.mp hsite)⟩
  have hrecorded : ∃ entry ∈ (check {} source).diagnostics.entries,
      entry.kind = .syntaxError ∧ entry.span = some mark ∧ entry.line = 4 := by
    decide +kernel
  refine ⟨⟨.expr call, hnode, hspan, (positions_right source).1 _ hnode⟩, hrecorded, ?_⟩
  obtain ⟨entry, hentry, _, hmark, _⟩ := hrecorded
  obtain ⟨span, hown, _, hregion⟩ := (positions_right source).2.2 {} entry hentry
  cases hmark.symm.trans hown
  exact hregion

end DeclCheck
