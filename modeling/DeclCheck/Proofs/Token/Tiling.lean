import DeclCheck.Proofs.Token.Pieces

/-!
# The results of reading tile the source

Tokens, errors and layout together are the source text: every result takes the text
that it quotes, the results do not overlap, and whatever they leave out is layout.  A
reader who asks for one result after the other gets all of them and then the end of
the source for ever.
-/

namespace DeclCheck

namespace Span

/-- The text stands in the source where the span says.  A span that selects a text
starts and stops between two characters. -/
def Selects (span : Span) (source text : List Char) : Prop :=
  ∃ before after, source = before ++ (text ++ after) ∧ span.start = byteLength before ∧
    span.stop = byteLength before + byteLength text

/-- The byte at the offset belongs to the span. -/
def Covers (span : Span) (offset : Nat) : Prop :=
  span.start ≤ offset ∧ offset < span.stop

/-- One of the spans stops before the other starts. -/
def Apart (one other : Span) : Prop :=
  one.stop ≤ other.start ∨ other.stop ≤ one.start

end Span

namespace Lexer

/-- Where a result of reading stands. -/
def resultSpan : Except LexError Token → Span
  | .ok token => token.span
  | .error error => error.span

/-- What a result says of the text it takes: a token is spelled by it, and the message
of an error quotes it. -/
def Quotes : Except LexError Token → List Char → Prop
  | .ok token, text => token.kind ≠ .eof ∧ token.kind.spelling = String.ofList text
  | .error error, text =>
      error.message = "unexpected character '" ++ String.ofList text ++ "'"

/-- A run of layout covers the byte at the offset and meets none of the results. -/
def LayoutAt (source : List Char) (results : List (Except LexError Token))
    (offset : Nat) : Prop :=
  ∃ before run rest, source = before ++ (run ++ rest) ∧ IsLayout run rest ∧
    byteLength before ≤ offset ∧ offset < byteLength before + byteLength run ∧
    ∀ result ∈ results, (resultSpan result).stop ≤ byteLength before ∨
      byteLength before + byteLength run ≤ (resultSpan result).start

/-- The results and the layout between them are the source. -/
structure Tiles (source : List Char) (results : List (Except LexError Token)) :
    Prop where
  selects : ∀ result ∈ results, (resultSpan result).start < (resultSpan result).stop ∧
    ∃ text, (resultSpan result).Selects source text ∧ Quotes result text
  pairwise : results.Pairwise fun first second =>
    (resultSpan first).stop ≤ (resultSpan second).start
  layout : ∀ offset < byteLength source,
    (∃ result ∈ results, (resultSpan result).Covers offset) ∨
      LayoutAt source results offset

/-! ## Pieces -/

theorem resultSpan_of_result? {region : Piece × Span} {result : Except LexError Token}
    (hresult : result? region = some result) : resultSpan result = region.2 := by
  rw [result?] at hresult
  cases hreading : region.1.reading with
  | layout =>
      rw [hreading] at hresult
      cases hresult
  | token kind =>
      rw [hreading] at hresult
      cases hresult
      rfl
  | unreadable =>
      rw [hreading] at hresult
      cases hresult
      rfl

variable {table : LineTable} {source : List Char} {piece : Piece} {span : Span}

theorem CutAt.selects (hcut : CutAt table source piece span) :
    span.start < span.stop ∧ span.Selects source piece.text := by
  obtain ⟨before, after, hsource, rfl, hne, _⟩ := hcut
  exact ⟨Nat.lt_add_of_pos_right (byteLength_pos hne), before, after, hsource, rfl, rfl⟩

/-- A piece that is a token is spelled by its text. -/
theorem CutAt.spelling (hcut : CutAt table source piece span) {kind : TokenKind}
    (hkind : piece.reading = .token kind) :
    kind ≠ .eof ∧ kind.spelling = String.ofList piece.text := by
  obtain ⟨before, after, _, _, _, hscan⟩ := hcut
  rw [hkind] at hscan
  obtain ⟨lexeme, rest, htext, hlexeme, hlength⟩ := cuts_of_scan hscan
  have hpiece : lexeme = piece.text := (List.append_inj htext hlength.symm).1.symm
  refine ⟨(scan_eq_token hscan).1, ?_⟩
  rw [← hpiece, ← hlexeme.spelling, String.ofList_toList]

theorem CutAt.quotes (hcut : CutAt table source piece span)
    {result : Except LexError Token} (hresult : result? (piece, span) = some result) :
    Quotes result piece.text := by
  rw [result?] at hresult
  cases hreading : piece.reading with
  | layout =>
      simp only [hreading] at hresult
      cases hresult
  | token kind =>
      simp only [hreading] at hresult
      cases hresult
      exact hcut.spelling hreading
  | unreadable =>
      simp only [hreading] at hresult
      cases hresult
      rfl

/-- A piece that is layout is a run of layout where it stands. -/
theorem CutAt.layout (hcut : CutAt table source piece span)
    (hlayout : piece.reading = .layout) :
    ∃ before run rest, source = before ++ (run ++ rest) ∧ IsLayout run rest ∧
      span.start = byteLength before ∧ span.stop = byteLength before + byteLength run := by
  obtain ⟨before, after, hsource, rfl, hne, hscan⟩ := hcut
  rw [hlayout] at hscan
  obtain ⟨run, rest, htext, hrun, hlength⟩ :=
    isLayout_of_scan (List.append_ne_nil_of_left_ne_nil hne _) hscan
  obtain ⟨hpiece, hafter⟩ := List.append_inj htext hlength.symm
  rw [← hpiece, ← hafter] at hrun
  exact ⟨before, piece.text, after, hsource, hrun, rfl, rfl⟩

/-- The regions of all pieces, from the start of the source on. -/
def sourceRegions (source : List Char) : List (Piece × Span) :=
  regions (LineTable.ofText source) 0 (pieces source)

theorem lex_eq_filterMap (source : List Char) :
    lex source = (sourceRegions source).filterMap result? :=
  place_eq_filterMap _ _ _

theorem cutAt_of_mem {source : List Char} {region : Piece × Span}
    (hmem : region ∈ sourceRegions source) :
    CutAt (LineTable.ofText source) source region.1 region.2 :=
  (pieces_cut source).cutAt [] region hmem

theorem sourceRegions_pairwise (source : List Char) :
    (sourceRegions source).Pairwise fun first second => first.2.stop ≤ second.2.start :=
  (regions_pairwise _ _ _).2

/-- Of two different regions one ends before the other starts. -/
theorem disjoint_of_mem {source : List Char} {first second : Piece × Span}
    (hfirst : first ∈ sourceRegions source) (hsecond : second ∈ sourceRegions source)
    (hne : first ≠ second) : first.2.Apart second.2 := by
  have hsymm : Std.Symm fun one other : Piece × Span => one.2.Apart other.2 :=
    ⟨fun _ _ => Or.symm⟩
  have hpairwise : (sourceRegions source).Pairwise fun one other => one.2.Apart other.2 :=
    (sourceRegions_pairwise source).imp Or.inl
  exact hpairwise.forall hfirst hsecond hne

theorem lex_layoutAt {source : List Char} {region : Piece × Span}
    (hmem : region ∈ sourceRegions source) (hlayout : region.1.reading = .layout)
    {offset : Nat} (hcovers : region.2.Covers offset) :
    LayoutAt source (lex source) offset := by
  obtain ⟨before, run, rest, hsource, hrun, hstart, hstop⟩ :=
    (cutAt_of_mem hmem).layout hlayout
  refine ⟨before, run, rest, hsource, hrun, hstart ▸ hcovers.1, hstop ▸ hcovers.2, ?_⟩
  intro result hresult
  rw [lex_eq_filterMap] at hresult
  obtain ⟨other, hother, hsome⟩ := List.mem_filterMap.mp hresult
  have hne : other ≠ region := by
    rintro rfl
    simp only [result?, hlayout] at hsome
    cases hsome
  rw [resultSpan_of_result? hsome, ← hstop, ← hstart]
  exact disjoint_of_mem hother hmem hne

/-- The results of reading a source, with its layout, are the source. -/
theorem tiles_lex (source : List Char) : Tiles source (lex source) where
  selects := by
    intro result hmem
    rw [lex_eq_filterMap] at hmem
    obtain ⟨region, hregion, hresult⟩ := List.mem_filterMap.mp hmem
    have hcut := cutAt_of_mem hregion
    rw [resultSpan_of_result? hresult]
    exact ⟨hcut.selects.1, region.1.text, hcut.selects.2, hcut.quotes hresult⟩
  pairwise := by
    rw [lex_eq_filterMap]
    apply (sourceRegions_pairwise source).filterMap
    intro first second hordered result hfirst other hsecond
    rwa [resultSpan_of_result? hfirst, resultSpan_of_result? hsecond]
  layout := by
    intro offset hoffset
    have hall : byteLength source = 0 + byteLength ((pieces source).flatMap Piece.text) := by
      rw [(pieces_cut source).flatMap_text, Nat.zero_add]
    obtain ⟨region, hmem, hcovers⟩ :=
      exists_region (LineTable.ofText source) (pieces source) (Nat.zero_le _) (hall ▸ hoffset)
    cases hresult : result? region with
    | none =>
        refine .inr (lex_layoutAt hmem ?_ hcovers)
        rw [result?] at hresult
        cases hreading : region.1.reading with
        | layout => rfl
        | token kind =>
            rw [hreading] at hresult
            cases hresult
        | unreadable =>
            rw [hreading] at hresult
            cases hresult
    | some result =>
        refine .inl ⟨result, ?_, ?_⟩
        · rw [lex_eq_filterMap]
          exact List.mem_filterMap.mpr ⟨region, hmem, hresult⟩
        · rw [resultSpan_of_result? hresult]
          exact hcovers

end Lexer

/-! ## One result after the other -/

namespace TokenStream

/-- What a stream answers when it is asked that many times. -/
def answers : Nat → TokenStream → List (Except LexError Token)
  | 0, _ => []
  | calls + 1, stream => stream.next.1 :: answers calls stream.next.2

theorem answers_of_pending_eq_nil {stream : TokenStream} (hdone : stream.pending = [])
    (calls : Nat) : stream.answers calls = List.replicate calls (.ok stream.endToken) := by
  induction calls with
  | zero => rfl
  | succ calls ih =>
      have hnext : stream.next = (.ok stream.endToken, stream) := by rw [next, hdone]
      rw [answers, hnext, ih, List.replicate_succ]

/-- First the pending results are answered, then the end of the source. -/
theorem answers_add (results : List (Except LexError Token)) (calls : Nat) :
    ∀ stream : TokenStream, stream.pending = results →
      stream.answers (results.length + calls) =
        results ++ List.replicate calls (.ok stream.endToken) := by
  induction results with
  | nil =>
      intro stream hpending
      rw [List.length_nil, Nat.zero_add, List.nil_append]
      exact answers_of_pending_eq_nil hpending calls
  | cons result rest ih =>
      intro stream hpending
      have hnext : stream.next = (result, { stream with pending := rest }) := by
        rw [next, hpending]
      have hrest := ih { stream with pending := rest } rfl
      rw [List.length_cons, Nat.add_right_comm, answers, hnext, hrest, List.cons_append]
      rfl

/-- Reading a source one result after the other loses and invents nothing: the results
tile the source, and after the last of them every call answers the empty end of the
source. -/
theorem answers_ofSource_tile (source : List Char) :
    Lexer.Tiles source (lex source) ∧
      ∀ calls, (ofSource source).answers ((lex source).length + calls) =
        lex source ++ List.replicate calls
          (.ok { kind := .eof,
                 span := (LineTable.ofText source).span (byteLength source)
                   (byteLength source) }) := by
  constructor
  · exact Lexer.tiles_lex source
  · intro calls
    exact answers_add (lex source) calls (ofSource source) rfl

end TokenStream

end DeclCheck
