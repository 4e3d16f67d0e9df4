import DeclCheck.Proofs.Relocate
import DeclCheck.Proofs.Token.LongestMatch

/-!
# Reading a text that goes on after a line break

No token reaches over a line break, and a comment that is closed stays as it is.  So the
results of reading two texts with a line break between them are those of the first,
if all of it can be read, and then those of the second, further down.
-/

namespace DeclCheck

namespace Lexer

variable {text run rest : List Char}

/-! ## One step -/

/-- What has no line break and stands before one does not reach over it. -/
theorem prefix_of_prefix_append_newline {head more : List Char} (hline : '\n' ∉ head)
    (hhead : head <+: text ++ '\n' :: more) : head <+: text := by
  rcases List.prefix_or_prefix_of_prefix hhead (List.prefix_append _ _) with hshort | hlong
  · exact hshort
  · obtain ⟨beyond, rfl⟩ := hlong
    cases beyond with
    | nil => rw [List.append_nil]
    | cons c beyond =>
        obtain ⟨rfl, _⟩ := List.cons_prefix_cons.mp ((List.prefix_append_right_inj text).mp hhead)
        exact absurd (List.mem_append_right _ List.mem_cons_self) hline

/-- The head of the text is that of blanks or of a comment. -/
inductive OpensLayout : List Char → Prop
  | blank {c : Char} {rest : List Char} (hblank : isBlank c = true) : OpensLayout (c :: rest)
  | lineComment (body : List Char) : OpensLayout ('/' :: '/' :: body)
  | blockComment (body : List Char) : OpensLayout ('/' :: '*' :: body)

theorem OpensLayout.not_token (hopens : OpensLayout text) (kind : TokenKind) :
    (scan text).1 ≠ .token kind := by
  cases hopens with
  | blank hblank => simp [scan_blank hblank]
  | lineComment body => simp [scan_lineComment]
  | blockComment body =>
      cases hlength : commentLength body with
      | none => simp [scan_of_isOpenComment (isOpenComment_iff.mpr hlength)]
      | some length => simp [scan_blockComment hlength]

theorem IsLayout.opensLayout (hlayout : IsLayout run rest) (more : List Char) :
    OpensLayout (run ++ more) := by
  cases hlayout with
  | blanks hne hrun =>
      obtain ⟨c, run, rfl⟩ := List.exists_cons_of_ne_nil hne
      exact .blank (hrun c List.mem_cons_self)
  | lineComment => exact .lineComment _
  | blockComment => exact .blockComment _

theorem OpensLayout.of_append_newline {more : List Char} (hne : text ≠ [])
    (hopens : OpensLayout (text ++ '\n' :: more)) : OpensLayout text := by
  match text, hne with
  | [c], _ =>
      -- the second character is the line break, which opens no comment
      cases hopens with
      | blank hblank => exact .blank hblank
  | c :: d :: text, _ =>
      cases hopens with
      | blank hblank => exact .blank hblank
      | lineComment => exact .lineComment text
      | blockComment => exact .blockComment text

/-- A token is read alike when the text goes on after a line break. -/
theorem scan_append_newline {kind : TokenKind} (hne : run ≠ [])
    (hscan : scan (run ++ rest) = (.token kind, run.length)) (more : List Char) :
    scan (run ++ (rest ++ '\n' :: more)) = (.token kind, run.length) := by
  have hspells : Spells (.token kind) run := spells_of_scan hne hscan (by simp)
  have hnone : ¬ OpensLayout (run ++ (rest ++ '\n' :: more)) := by
    intro hopens
    rw [← List.append_assoc] at hopens
    have hhead := hopens.of_append_newline (List.append_ne_nil_of_left_ne_nil hne _)
    exact hhead.not_token kind (by rw [hscan])
  have hreaches : Reaches (run ++ (rest ++ '\n' :: more)) run.length := by
    apply hspells.reaches
    intro hopen
    obtain ⟨body, hbody⟩ := hopen.opens
    exact hnone (hbody ▸ .blockComment body)
  obtain ⟨own, after, hjoined, hown, hlength⟩ :=
    exists_run_of_scan (List.append_ne_nil_of_left_ne_nil hne (rest ++ '\n' :: more))
  rw [hjoined] at hlength hnone hreaches ⊢
  have hother : Spells (scan (own ++ after)).1 own :=
    spells_of_scan hown (Prod.ext rfl hlength) hreaches.1
  have hshort : own.length ≤ run.length := by
    cases hreading : (scan (own ++ after)).1 with
    | unreadable => exact absurd hreading hreaches.1
    | layout =>
        rw [hreading] at hother
        cases hother with
        | layout hlayout => exact absurd (hlayout.opensLayout after) hnone
    | token other =>
        rw [hreading] at hother
        obtain ⟨left, hleft⟩ : own <+: run ++ rest := by
          cases hother with
          | token hlexeme =>
              apply prefix_of_prefix_append_newline hlexeme.newline_not_mem
              rw [List.append_assoc, hjoined]
              exact List.prefix_append own after
        have hback : Reaches (own ++ left) own.length := by
          apply hother.reaches
          rw [hleft]
          intro hopen
          have hunreadable := scan_of_isOpenComment hopen
          rw [hscan] at hunreadable
          cases hunreadable
        rw [hleft, Reaches, hscan] at hback
        exact hback.2
  have hsame : own.length = run.length :=
    Nat.le_antisymm hshort (hlength ▸ hreaches.2)
  obtain ⟨rfl, rfl⟩ := List.append_inj hjoined hsame.symm
  exact Prod.ext (hspells.unique hother) hlength

/-! ## Step after step -/

theorem pieces_append {reading : Reading} (hne : run ≠ [])
    (hscan : scan (run ++ rest) = (reading, run.length)) :
    pieces (run ++ rest) = { reading := reading, text := run } :: pieces rest :=
  (pieces_cut _).eq (.step hne hscan (pieces_cut rest))

theorem place_layout (table : LineTable) (offset : Nat) (hlayout : IsLayout run rest) :
    place table offset (pieces (run ++ rest)) =
      place table (offset + byteLength run) (pieces rest) := by
  rw [pieces_append hlayout.ne_nil hlayout.scan_append, place]

/-- Blanks are skipped, whatever follows them. -/
theorem place_blanks (table : LineTable) (offset : Nat) (hrun : ∀ c ∈ run, isBlank c = true)
    (rest : List Char) :
    place table offset (pieces (run ++ rest)) =
      place table (offset + byteLength run) (pieces rest) := by
  have hstops {blanks : List Char} (hblanks : ∀ c ∈ blanks, isBlank c = true) (offset : Nat) :
      place table offset (pieces (blanks ++ rest.dropWhile isBlank)) =
        place table (offset + byteLength blanks) (pieces (rest.dropWhile isBlank)) := by
    by_cases hne : blanks = []
    · rw [hne]
      rfl
    · exact place_layout table offset (.blanks hne hblanks (stops_dropWhile _ _))
  have htake : ∀ c ∈ rest.takeWhile isBlank, isBlank c = true :=
    List.all_eq_true.mp List.all_takeWhile
  have hall : ∀ c ∈ run ++ rest.takeWhile isBlank, isBlank c = true :=
    List.forall_mem_append.mpr ⟨hrun, htake⟩
  conv_lhs => rw [← List.takeWhile_append_dropWhile (p := isBlank) (l := rest)]
  conv_rhs => rw [← List.takeWhile_append_dropWhile (p := isBlank) (l := rest)]
  rw [← List.append_assoc, hstops hall, hstops htake, byteLength_append, Nat.add_assoc]

theorem Stops.append_newline {goesOn : Char → Bool} (hstops : Stops goesOn rest)
    (hnewline : goesOn '\n' = false) (more : List Char) :
    Stops goesOn (rest ++ '\n' :: more) := by
  cases rest with
  | nil =>
      rintro c ⟨⟩
      exact hnewline
  | cons d rest =>
      rintro c ⟨⟩
      exact hstops d rfl

/-- Layout is skipped also when the text goes on after a line break. -/
theorem place_layout_append_newline (table : LineTable) (offset : Nat)
    (hlayout : IsLayout run rest) (more : List Char) :
    place table offset (pieces (run ++ (rest ++ '\n' :: more))) =
      place table (offset + byteLength run) (pieces (rest ++ '\n' :: more)) := by
  cases hlayout with
  | blanks _ hrun => exact place_blanks table offset hrun _
  | lineComment hbody hends =>
      exact place_layout table offset (.lineComment hbody (hends.append_newline rfl more))
  | blockComment hbody => exact place_layout table offset (.blockComment hbody)

/-- Where the first part can be read as a whole, what is read of both parts is what is
read of the first, and then what is read of the second behind the line break. -/
theorem place_append_newline (table : LineTable) {first : List Char} {cut : List Piece}
    (hcut : Cut first cut) (second : List Char)
    (hreadable : ∀ piece ∈ cut, piece.reading ≠ .unreadable) :
    ∀ offset, place table offset (pieces (first ++ '\n' :: second)) =
      place table offset cut ++
        place table (offset + byteLength first + 1) (pieces second) := by
  induction hcut with
  | done =>
      intro offset
      have hnewline : ∀ c ∈ ['\n'], isBlank c = true := List.forall_mem_singleton.mpr rfl
      exact place_blanks table offset hnewline second
  | @step reading run rest pieces hne hscan hrest ih =>
      intro offset
      obtain ⟨hhere, hlater⟩ := List.forall_mem_cons.mp hreadable
      have hnext := ih hlater (offset + byteLength run)
      rw [byteLength_append, List.append_assoc, ← Nat.add_assoc]
      cases reading with
      | unreadable => exact absurd rfl hhere
      | token kind =>
          rw [pieces_append hne (scan_append_newline hne hscan second), place, hnext]
          rfl
      | layout =>
          obtain ⟨own, after, htext, hlayout, hlength⟩ :=
            isLayout_of_scan (List.append_ne_nil_of_left_ne_nil hne _) hscan
          obtain ⟨rfl, rfl⟩ := List.append_inj htext hlength.symm
          rw [place_layout_append_newline table offset hlayout, hnext]
          rfl

/-- Without errors there is nothing unreadable. -/
theorem readable_of_lexErrors {table : LineTable} {cut : List Piece} :
    ∀ {offset : Nat}, lexErrors (place table offset cut) = [] →
      ∀ piece ∈ cut, piece.reading ≠ .unreadable := by
  induction cut with
  | nil => exact fun _ => List.forall_mem_nil _
  | cons piece rest ih =>
      intro offset hnone
      rw [place] at hnone
      cases hreading : piece.reading with
      | unreadable =>
          rw [hreading] at hnone
          cases hnone
      | layout =>
          rw [hreading] at hnone
          exact List.forall_mem_cons.mpr ⟨by simp [hreading], ih hnone⟩
      | token kind =>
          rw [hreading] at hnone
          exact List.forall_mem_cons.mpr ⟨by simp [hreading], ih hnone⟩

/-! ## Results at other places -/

/-- The result of reading, at another place. -/
def relocateResult (move : Span → Span) : Except LexError Token → Except LexError Token
  | .ok token => .ok (token.relocate move)
  | .error error => .error (error.relocate move)

theorem map_relocateResult_id (results : List (Except LexError Token)) :
    results.map (relocateResult id) = results := by
  have hsame : relocateResult id = id := by
    funext result
    cases result <;> rfl
  rw [hsame, List.map_id]

/-- What a text is read as at one place tells what it is read as at another. -/
theorem place_relocate {here there : LineTable} {move : Span → Span} {distance limit : Nat}
    (hspan : ∀ start stop, start ≤ limit →
      there.span (distance + start) (distance + stop) = move (here.span start stop))
    (pieces : List Piece) :
    ∀ offset, offset + byteLength (pieces.flatMap Piece.text) ≤ limit →
      place there (distance + offset) pieces =
        (place here offset pieces).map (relocateResult move) := by
  induction pieces with
  | nil => exact fun _ _ => rfl
  | cons piece rest ih =>
      intro offset hlimit
      rw [List.flatMap_cons, byteLength_append, ← Nat.add_assoc] at hlimit
      have hlater := ih (offset + byteLength piece.text) hlimit
      have hhere := hspan offset (offset + byteLength piece.text) (by omega)
      simp only [place, Nat.add_assoc distance, hlater, hhere]
      cases piece.reading <;> rfl

end Lexer

theorem goodTokens_map_relocate (move : Span → Span) (results : List (Except LexError Token)) :
    goodTokens (results.map (Lexer.relocateResult move)) =
      (goodTokens results).map (Token.relocate move) := by
  rw [goodTokens, goodTokens, List.filterMap_map, List.map_filterMap]
  congr 1
  funext result
  cases result <;> rfl

theorem lexErrors_map_relocate (move : Span → Span) (results : List (Except LexError Token)) :
    lexErrors (results.map (Lexer.relocateResult move)) =
      (lexErrors results).map (LexError.relocate move) := by
  rw [lexErrors, lexErrors, List.filterMap_map, List.map_filterMap]
  congr 1
  funext result
  cases result <;> rfl

/-! ## Two texts -/

namespace Span

/-- The span further down: `bytes` bytes and `lines` lines later in the source, in the
same column. -/
def down (bytes lines : Nat) (span : Span) : Span :=
  { span with
    start := span.start + bytes
    stop := span.stop + bytes
    line := span.line + lines }

theorem coverHom_down (bytes lines : Nat) : CoverHom (down bytes lines) where
  map_cover first second := by
    simp [down, cover, Nat.add_min_add_right, Nat.add_max_add_right]

/-- Where a text goes that comes after a first one and a line break. -/
def below (first : List Char) : Span → Span :=
  down (byteLength first + 1) (first.count '\n' + 1)

end Span

namespace LineTable

variable (first second : List Char)

theorem span_joined_of_le {start : Nat} (hle : start ≤ byteLength first) (stop : Nat) :
    (ofText (first ++ '\n' :: second)).span start stop = (ofText first).span start stop := by
  simp only [span, position_joined_of_le first second hle]

theorem span_joined_add (start stop : Nat) :
    (ofText (first ++ '\n' :: second)).span (byteLength first + 1 + start)
        (byteLength first + 1 + stop) =
      Span.below first ((ofText second).span start stop) := by
  simp only [span, position_joined_add]
  simp only [Span.below, Span.down, Nat.add_comm (byteLength first + 1)]

end LineTable

/-- Two texts with a line break between them are read one after the other, if the first
one can be read as a whole. -/
theorem lex_append_newline {first : List Char} (hreadable : lexErrors (lex first) = [])
    (second : List Char) :
    lex (first ++ '\n' :: second) =
      lex first ++ (lex second).map (Lexer.relocateResult (Span.below first)) := by
  have hwhole (text : List Char) :
      0 + byteLength ((Lexer.pieces text).flatMap Piece.text) ≤ byteLength text := by
    rw [(Lexer.pieces_cut text).flatMap_text, Nat.zero_add]
  have hfirst : Lexer.place (LineTable.ofText (first ++ '\n' :: second)) 0
      (Lexer.pieces first) = lex first := by
    have hspan : ∀ start stop, start ≤ byteLength first →
        (LineTable.ofText (first ++ '\n' :: second)).span (0 + start) (0 + stop) =
          id ((LineTable.ofText first).span start stop) := by
      intro start stop hle
      rw [Nat.zero_add, Nat.zero_add, LineTable.span_joined_of_le first second hle, id]
    have hmoved := Lexer.place_relocate hspan (Lexer.pieces first) 0 (hwhole first)
    rwa [Lexer.map_relocateResult_id] at hmoved
  have hsecond := Lexer.place_relocate
    (fun start stop _ => LineTable.span_joined_add first second start stop)
    (Lexer.pieces second) 0 (hwhole second)
  rw [lex, Lexer.place_append_newline _ (Lexer.pieces_cut first) second
    (Lexer.readable_of_lexErrors hreadable), hfirst, Nat.zero_add]
  exact congrArg (lex first ++ ·) hsecond

section Below

variable {first : List Char} (hreadable : lexErrors (lex first) = []) (second : List Char)
include hreadable

theorem goodTokens_append_newline :
    goodTokens (lex (first ++ '\n' :: second)) =
      goodTokens (lex first) ++
        (goodTokens (lex second)).map (Token.relocate (Span.below first)) := by
  rw [lex_append_newline hreadable, ← goodTokens_map_relocate]
  exact List.filterMap_append

theorem lexErrors_append_newline :
    lexErrors (lex (first ++ '\n' :: second)) =
      (lexErrors (lex second)).map (LexError.relocate (Span.below first)) := by
  have happend : lexErrors (lex (first ++ '\n' :: second)) =
      lexErrors (lex first) ++
        lexErrors ((lex second).map (Lexer.relocateResult (Span.below first))) := by
    rw [lex_append_newline hreadable]
    exact List.filterMap_append
  rw [happend, hreadable, List.nil_append, lexErrors_map_relocate]

end Below

theorem endSpan_append_newline (first second : List Char) :
    endSpan (first ++ '\n' :: second) = Span.below first (endSpan second) := by
  have hlength : byteLength (first ++ '\n' :: second) =
      byteLength first + 1 + byteLength second := by
    rw [byteLength_append, Nat.add_assoc]
    rfl
  rw [endSpan, endSpan, hlength, LineTable.span_joined_add]

end DeclCheck
