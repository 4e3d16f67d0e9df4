import DeclCheck.Proofs.Token.Lexeme
import Mathlib.Data.List.Chain

/-!
# Texts of lexemes

Every good token of a source text is spelled by a lexeme.  In turn, lexemes that are
written one after the other with nothing between them are read as the tokens they
spell, as long as no lexeme starts with a character that goes on with the one before
it.
-/

namespace DeclCheck

namespace TokenKind

/-- The spelling is a lexeme of the kind. -/
def IsSpelled (kind : TokenKind) : Prop :=
  Lexer.Lexeme kind kind.spelling.toList

/-- The first character of the second token does not go on with the first one. -/
def Apart (first second : TokenKind) : Prop :=
  Lexer.Stops first.goesOn second.spelling.toList

end TokenKind

namespace Lexer

/-! ## Pieces -/

theorem piecesWithin_succ (bound : Nat) {text : List Char} (hne : text ≠ []) :
    piecesWithin (bound + 1) text =
      { reading := (scan text).1, text := text.take (scan text).2 } ::
        piecesWithin bound (text.drop (scan text).2) := by
  cases text with
  | nil => exact absurd rfl hne
  | cons c rest => rfl

/-- Every piece was cut off somewhere in the text. -/
theorem exists_scan_of_mem_piecesWithin (bound : Nat) :
    ∀ {text : List Char} {piece : Piece}, piece ∈ piecesWithin bound text →
      ∃ rest, rest <:+ text ∧ piece.reading = (scan rest).1 ∧
        piece.text = rest.take (scan rest).2 := by
  induction bound with
  | zero =>
      intro text piece hmem
      simp [piecesWithin] at hmem
  | succ bound ih =>
      intro text piece hmem
      by_cases hne : text = []
      · subst hne
        simp [piecesWithin] at hmem
      · rw [piecesWithin_succ bound hne, List.mem_cons] at hmem
        rcases hmem with rfl | hmem
        · exact ⟨text, List.suffix_rfl, rfl, rfl⟩
        · obtain ⟨rest, hsuffix, hpiece⟩ := ih hmem
          exact ⟨rest, hsuffix.trans (List.drop_suffix _ _), hpiece⟩

/-- What is read at the head of the text is the given result, up to its place. -/
def ReadsAt (text : List Char) : Except LexError Token → Prop
  | .ok token => (scan text).1 = .token token.kind
  | .error error =>
      (scan text).1 = .unreadable ∧ error.text = String.ofList (text.take (scan text).2)

theorem exists_readsAt_of_mem_place {source : List Char} (table : LineTable)
    {result : Except LexError Token} {pieces : List Piece}
    (hpieces : ∀ piece ∈ pieces, ∃ rest, rest <:+ source ∧
      piece.reading = (scan rest).1 ∧ piece.text = rest.take (scan rest).2) :
    ∀ offset, result ∈ place table offset pieces →
      ∃ rest, rest <:+ source ∧ ReadsAt rest result := by
  induction pieces with
  | nil =>
      intro offset hmem
      cases hmem
  | cons piece later ih =>
      intro offset hmem
      rw [List.forall_mem_cons] at hpieces
      obtain ⟨⟨rest, hrest, hscan, htext⟩, hlater⟩ := hpieces
      cases hreading : piece.reading with
      | layout =>
          simp only [place, hreading] at hmem
          exact ih hlater _ hmem
      | token kind =>
          simp only [place, hreading] at hmem
          rcases List.mem_cons.mp hmem with rfl | hmem
          · exact ⟨rest, hrest, hscan.symm.trans hreading⟩
          · exact ih hlater _ hmem
      | unreadable =>
          simp only [place, hreading] at hmem
          rcases List.mem_cons.mp hmem with rfl | hmem
          · exact ⟨rest, hrest, hscan.symm.trans hreading, congrArg String.ofList htext⟩
          · exact ih hlater _ hmem

/-- Every result of reading a source text is read somewhere in it. -/
theorem exists_readsAt_of_mem_lex {source : List Char} {result : Except LexError Token}
    (hmem : result ∈ lex source) : ∃ rest, rest <:+ source ∧ ReadsAt rest result :=
  exists_readsAt_of_mem_place _ (fun _ => exists_scan_of_mem_piecesWithin _) _ hmem

end Lexer

/-- Good tokens are spelled by lexemes. -/
theorem isSpelled_of_mem_goodTokens {source : List Char} {token : Token}
    (hmem : token ∈ goodTokens (lex source)) : token.kind.IsSpelled := by
  obtain ⟨result, hresult, htoken⟩ := List.mem_filterMap.mp hmem
  obtain ⟨rest, _, hreads⟩ := Lexer.exists_readsAt_of_mem_lex hresult
  cases result with
  | error error => cases htoken
  | ok own =>
      cases htoken
      have hscan : Lexer.scan rest = (.token token.kind, (Lexer.scan rest).2) :=
        Prod.ext hreads rfl
      obtain ⟨lexeme, _, _, hlexeme, _⟩ := Lexer.cuts_of_scan hscan
      rwa [TokenKind.IsSpelled, hlexeme.spelling]

/-! ## Lexemes one after the other -/

namespace Lexer

theorem Lexeme.ne_nil {kind : TokenKind} {text : List Char} (hlexeme : Lexeme kind text) :
    text ≠ [] := by
  cases hlexeme with
  | integer hdigits => exact hdigits.ne_nil
  | float hdigits => exact List.append_ne_nil_of_left_ne_nil hdigits.ne_nil _
  | symbol mark => cases mark <;> simp [Symbol.chars]
  | _ => simp

/-- The text of some tokens, with nothing between them. -/
def spelled (kinds : List TokenKind) : List Char :=
  kinds.flatMap (·.spelling.toList)

theorem spelled_cons (kind : TokenKind) (kinds : List TokenKind) :
    spelled (kind :: kinds) = kind.spelling.toList ++ spelled kinds :=
  List.flatMap_cons

/-- What stops a token in front of another one stops it in front of all that
follow. -/
theorem stops_spelled {kind : TokenKind} {kinds : List TokenKind}
    (hspelled : ∀ other ∈ kinds, other.IsSpelled)
    (hapart : ∀ other, kinds.head? = some other → kind.Apart other) :
    Stops kind.goesOn (spelled kinds) := by
  cases kinds with
  | nil =>
      rintro c ⟨⟩
  | cons other kinds =>
      have hstops := hapart other rfl
      have hne := (hspelled other List.mem_cons_self).ne_nil
      obtain ⟨d, more, hspelling⟩ := List.exists_cons_of_ne_nil hne
      rw [TokenKind.Apart, hspelling] at hstops
      intro c hc
      apply hstops c
      rwa [spelled_cons, hspelling] at hc

/-- Lexemes that stand apart from one another are cut off one by one. -/
theorem piecesWithin_spelled {kinds : List TokenKind}
    (hspelled : ∀ kind ∈ kinds, kind.IsSpelled) (hapart : kinds.IsChain TokenKind.Apart) :
    ∀ {bound : Nat}, (spelled kinds).length ≤ bound →
      piecesWithin bound (spelled kinds) =
        kinds.map fun kind => { reading := .token kind, text := kind.spelling.toList } := by
  induction kinds with
  | nil =>
      intro bound _
      cases bound <;> rfl
  | cons kind kinds ih =>
      intro bound hbound
      rw [List.forall_mem_cons] at hspelled
      have hnext := List.isChain_cons.mp hapart
      have hscan := hspelled.1.scan_append (stops_spelled hspelled.2 hnext.1)
      have hne : kind.spelling.toList ≠ [] := hspelled.1.ne_nil
      have hlength := List.length_pos_iff.mpr hne
      rw [spelled_cons, List.length_append] at hbound
      cases bound with
      | zero => omega
      | succ bound =>
          have hrest : (spelled kinds).length ≤ bound := by omega
          rw [spelled_cons, piecesWithin_succ bound (List.append_ne_nil_of_left_ne_nil hne _),
            hscan, List.take_left, List.drop_left, ih hspelled.2 hnext.2 hrest,
            List.map_cons]

theorem place_tokens (table : LineTable) (kinds : List TokenKind) :
    ∀ offset,
      let results := place table offset (kinds.map fun kind =>
        { reading := .token kind, text := kind.spelling.toList })
      (goodTokens results).map Token.kind = kinds ∧ lexErrors results = [] := by
  induction kinds with
  | nil => exact fun offset => ⟨rfl, rfl⟩
  | cons kind kinds ih =>
      intro offset
      obtain ⟨htokens, herrors⟩ := ih (offset + byteLength kind.spelling.toList)
      exact ⟨congrArg (kind :: ·) htokens, herrors⟩

end Lexer

/-- Lexemes that stand apart from one another are read as their tokens, without
errors. -/
theorem lex_spelled {kinds : List TokenKind} (hspelled : ∀ kind ∈ kinds, kind.IsSpelled)
    (hapart : kinds.IsChain TokenKind.Apart) :
    (goodTokens (lex (Lexer.spelled kinds))).map Token.kind = kinds ∧
      lexErrors (lex (Lexer.spelled kinds)) = [] := by
  rw [lex, Lexer.pieces, Lexer.piecesWithin_spelled hspelled hapart (Nat.le_refl _)]
  exact Lexer.place_tokens _ kinds 0

end DeclCheck
