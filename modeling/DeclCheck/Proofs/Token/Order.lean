import DeclCheck.Proofs.Token.Scan

/-!
# The good tokens of a source text

No good token stands for the end of the source.  Every one takes at least a byte,
and they follow one another in the text without overlap.
-/

namespace DeclCheck

namespace Lexer

theorem ofWord_ne_eof (word : List Char) : TokenKind.ofWord word ≠ .eof := by
  rw [TokenKind.ofWord]
  split
  · simp
  · split <;> simp

theorem isWordChar_of_isWordStart {c : Char} (hstart : isWordStart c = true) :
    isWordChar c = true := by
  simp only [isWordStart, Bool.or_eq_true] at hstart
  simp only [isWordChar, Char.isAlphanum, Bool.or_eq_true]
  rcases hstart with halpha | hunderscore
  · exact .inl (.inl halpha)
  · exact .inr hunderscore

theorem chars_length_pos (mark : Symbol) : 0 < mark.chars.length := by
  cases mark <;> decide

/-- A token that stands at the head of a text is not the end of the source, and
takes at least one character. -/
theorem scan_eq_token {text : List Char} {kind : TokenKind} {length : Nat}
    (hscan : scan text = (.token kind, length)) : kind ≠ .eof ∧ 0 < length := by
  cases found_of_scan (ne_nil_of_scan hscan (by simp)) hscan with
  | word rest hstart =>
      refine ⟨ofWord_ne_eof _, ?_⟩
      simp [isWordChar_of_isWordStart hstart]
  | number hdigit hanswer =>
      cases hanswer
      refine ⟨by split <;> simp, Nat.add_pos_left ?_ _⟩
      simp [digitCount, hdigit]
  | quoted hanswer =>
      rw [scanQuoted] at hanswer
      split at hanswer
      · cases hanswer
        exact ⟨by simp, Nat.succ_pos _⟩
      · cases hanswer
  | symbol hcomment hmark => exact ⟨by simp, chars_length_pos _⟩

theorem byteLength_pos {text : List Char} (hne : text ≠ []) : 0 < byteLength text := by
  cases text with
  | nil => exact absurd rfl hne
  | cons c rest => exact Nat.add_pos_left c.utf8Size_pos _

/-- What is known of a piece that is a token. -/
theorem piecesWithin_token (bound : Nat) :
    ∀ {text : List Char} {piece : Piece} {kind : TokenKind},
      piece ∈ piecesWithin bound text → piece.reading = .token kind →
      kind ≠ .eof ∧ 0 < byteLength piece.text := by
  induction bound with
  | zero =>
      intro text piece kind hmem
      simp [piecesWithin] at hmem
  | succ bound ih =>
      intro text piece kind hmem hreading
      cases text with
      | nil => simp [piecesWithin] at hmem
      | cons c rest =>
          rw [piecesWithin, List.mem_cons] at hmem
          · rcases hmem with rfl | hmem
            · have htoken := scan_eq_token (Prod.ext hreading rfl)
              refine ⟨htoken.1, byteLength_pos ?_⟩
              simp [Nat.ne_of_gt htoken.2]
            · exact ih hmem hreading
          · simp

end Lexer

theorem mem_goodTokens {results : List (Except LexError Token)} {token : Token} :
    token ∈ goodTokens results ↔ .ok token ∈ results := by
  rw [goodTokens, List.mem_filterMap]
  constructor
  · rintro ⟨result, hmem, htoken⟩
    cases result with
    | ok own =>
        cases htoken
        exact hmem
    | error error => cases htoken
  · exact fun hmem => ⟨_, hmem, rfl⟩

/-- The tokens take some text each, one after the other from the given offset
on. -/
structure InOrder (offset : Nat) (tokens : List Token) : Prop where
  nonempty : ∀ token ∈ tokens, token.span.start < token.span.stop
  offset_le : ∀ token ∈ tokens, offset ≤ token.span.start
  pairwise : tokens.Pairwise fun first second =>
    first.span.stop ≤ second.span.start

namespace Lexer

theorem goodTokens_place (table : LineTable) {pieces : List Piece}
    (hpieces : ∀ piece ∈ pieces, ∀ kind, piece.reading = .token kind →
      kind ≠ .eof ∧ 0 < byteLength piece.text) :
    ∀ offset, InOrder offset (goodTokens (place table offset pieces)) ∧
      ∀ token ∈ goodTokens (place table offset pieces), token.kind ≠ .eof := by
  induction pieces with
  | nil => exact fun offset => ⟨⟨by simp [place, goodTokens], by simp [place, goodTokens],
      by simp [place, goodTokens]⟩, by simp [place, goodTokens]⟩
  | cons piece rest ih =>
      intro offset
      have hrest := ih (fun other hmem => hpieces other (List.mem_cons_of_mem _ hmem))
        (offset + byteLength piece.text)
      have hskip : InOrder offset
          (goodTokens (place table (offset + byteLength piece.text) rest)) :=
        ⟨hrest.1.nonempty, fun token hmem =>
          Nat.le_trans (Nat.le_add_right _ _) (hrest.1.offset_le token hmem),
          hrest.1.pairwise⟩
      cases hreading : piece.reading with
      | layout =>
          simp only [place, hreading]
          exact ⟨hskip, hrest.2⟩
      | unreadable =>
          simp only [place, hreading]
          exact ⟨hskip, hrest.2⟩
      | token kind =>
          obtain ⟨hkind, hlength⟩ := hpieces piece List.mem_cons_self kind hreading
          simp only [place, hreading, goodTokens, List.filterMap_cons, Except.toOption]
          refine ⟨⟨?_, ?_, ?_⟩, ?_⟩
          · exact List.forall_mem_cons.mpr
              ⟨Nat.lt_add_of_pos_right hlength, hrest.1.nonempty⟩
          · exact List.forall_mem_cons.mpr ⟨Nat.le_refl _, hskip.offset_le⟩
          · exact List.pairwise_cons.mpr ⟨hrest.1.offset_le, hrest.1.pairwise⟩
          · exact List.forall_mem_cons.mpr ⟨hkind, hrest.2⟩

end Lexer

theorem goodTokens_inOrder (source : List Char) :
    InOrder 0 (goodTokens (lex source)) :=
  (Lexer.goodTokens_place _ (fun _ hmem _ hreading =>
    Lexer.piecesWithin_token _ hmem hreading) 0).1

theorem goodTokens_ne_eof (source : List Char) :
    ∀ token ∈ goodTokens (lex source), token.kind ≠ .eof :=
  (Lexer.goodTokens_place _ (fun _ hmem _ hreading =>
    Lexer.piecesWithin_token _ hmem hreading) 0).2

/-! ## Parts of tokens in order -/

namespace InOrder

variable {offset : Nat} {tokens first second : List Token}

theorem sublist (horder : InOrder offset tokens) (hsublist : first.Sublist tokens) :
    InOrder offset first where
  nonempty token hmem := horder.nonempty token (hsublist.subset hmem)
  offset_le token hmem := horder.offset_le token (hsublist.subset hmem)
  pairwise := horder.pairwise.sublist hsublist

theorem left (horder : InOrder offset (first ++ second)) : InOrder offset first :=
  horder.sublist (List.sublist_append_left _ _)

theorem right (horder : InOrder offset (first ++ second)) : InOrder offset second :=
  horder.sublist (List.sublist_append_right _ _)

theorem of_cons {token : Token} (horder : InOrder offset (token :: tokens)) :
    InOrder offset tokens :=
  horder.sublist (List.sublist_cons_self _ _)

/-- What stands in the first part ends before anything of the second part starts. -/
theorem stop_le_start (horder : InOrder offset (first ++ second)) {before after : Token}
    (hbefore : before ∈ first) (hafter : after ∈ second) :
    before.span.stop ≤ after.span.start :=
  (List.pairwise_append.mp horder.pairwise).2.2 before hbefore after hafter

/-- No token starts before the first one. -/
theorem head_start_le (horder : InOrder offset tokens) {head token : Token}
    (hhead : tokens.head? = some head) (hmem : token ∈ tokens) :
    head.span.start ≤ token.span.start := by
  obtain ⟨rest, rfl⟩ := List.head?_eq_some_iff.mp hhead
  rcases List.mem_cons.mp hmem with rfl | hmem
  · exact Nat.le_refl _
  · have hhere := horder.nonempty head List.mem_cons_self
    have hlater := (List.pairwise_cons.mp horder.pairwise).1 token hmem
    omega

/-- No token ends after the last one. -/
theorem stop_le_last (horder : InOrder offset tokens) {last token : Token}
    (hlast : tokens.getLast? = some last) (hmem : token ∈ tokens) :
    token.span.stop ≤ last.span.stop := by
  obtain ⟨before, rfl⟩ := List.getLast?_eq_some_iff.mp hlast
  rcases List.mem_append.mp hmem with hmem | hmem
  · have hhere := horder.nonempty last (List.mem_append_right _ List.mem_cons_self)
    have hearlier := horder.stop_le_start hmem List.mem_cons_self
    omega
  · cases List.mem_singleton.mp hmem
    exact Nat.le_refl _

end InOrder

end DeclCheck
