import DeclCheck.Proofs.Token.Joined

/-!
# Slices of a source

The spelling of a token is the slice of the source under its span.  No token goes on with
a blank, so the slices of the tokens can be written down anew with blanks between them:
they are read as the same tokens, and nothing else is read.
-/

namespace DeclCheck

/-! ## Spans -/

/-- A text without the characters that take its first bytes. -/
def dropBytes : Nat → List Char → List Char
  | _, [] => []
  | count, c :: rest =>
      if count = 0 then c :: rest else dropBytes (count - c.utf8Size) rest

/-- The characters that take the first bytes of a text. -/
def takeBytes : Nat → List Char → List Char
  | _, [] => []
  | count, c :: rest =>
      if count = 0 then [] else c :: takeBytes (count - c.utf8Size) rest

/-- What stands in the source under a span. -/
def Span.slice (span : Span) (source : List Char) : List Char :=
  takeBytes (span.stop - span.start) (dropBytes span.start source)

theorem dropBytes_byteLength (before after : List Char) :
    dropBytes (byteLength before) (before ++ after) = after := by
  induction before with
  | nil => cases after <;> rfl
  | cons c rest ih =>
      have hpos : byteLength (c :: rest) ≠ 0 :=
        Nat.ne_of_gt (Lexer.byteLength_pos (List.cons_ne_nil c rest))
      rw [List.cons_append, dropBytes, if_neg hpos, byteLength, Nat.add_sub_cancel_left, ih]

theorem takeBytes_byteLength (text after : List Char) :
    takeBytes (byteLength text) (text ++ after) = text := by
  induction text with
  | nil => cases after <;> rfl
  | cons c rest ih =>
      have hpos : byteLength (c :: rest) ≠ 0 :=
        Nat.ne_of_gt (Lexer.byteLength_pos (List.cons_ne_nil c rest))
      rw [List.cons_append, takeBytes, if_neg hpos, byteLength, Nat.add_sub_cancel_left, ih]

theorem Span.Selects.slice_eq {span : Span} {source text : List Char}
    (hselects : span.Selects source text) : span.slice source = text := by
  obtain ⟨before, after, hsource, hstart, hstop⟩ := hselects
  rw [slice, hstop, hstart, Nat.add_sub_cancel_left, hsource, dropBytes_byteLength,
    takeBytes_byteLength]

/-- A token has the spelling that stands in the source under its span. -/
theorem slice_of_mem_goodTokens {source : List Char} {token : Token}
    (hmem : token ∈ goodTokens (lex source)) :
    String.ofList (token.span.slice source) = token.kind.spelling := by
  obtain ⟨_, text, hselects, _, hspelling⟩ :=
    (Lexer.tiles_lex source).selects _ (mem_goodTokens.mp hmem)
  rw [hspelling]
  exact congrArg String.ofList hselects.slice_eq

/-! ## Blanks between tokens -/

/-- A blank ends every token. -/
theorem TokenKind.goesOn_of_isBlank (kind : TokenKind) {c : Char}
    (hblank : Lexer.isBlank c = true) : kind.goesOn c = false := by
  have hne : ∀ d, Lexer.isBlank d = false → c ≠ d := by
    rintro d hd rfl
    rw [hblank] at hd
    cases hd
  have hword : (Lexer.isWordChar c || c = '.') = false := by
    rw [Bool.or_eq_false_iff, decide_eq_false_iff_not]
    constructor
    · cases hchar : Lexer.isWordChar c with
      | false => rfl
      | true => exact absurd rfl (hne c (Lexer.isBlank_of_isWordChar hchar))
    · exact hne '.' rfl
  cases kind with
  | symbol mark =>
      cases mark <;> simp [goesOn, Symbol.goesOn, hne '=' rfl, hne '/' rfl, hne '*' rfl]
  | string text => rfl
  | _ => exact hword

namespace Lexer

theorem stops_of_isBlank (kind : TokenKind) {gap : List Char} (hne : gap ≠ [])
    (hgap : ∀ c ∈ gap, isBlank c = true) (rest : List Char) :
    Stops kind.goesOn (gap ++ rest) := by
  obtain ⟨c, gap, rfl⟩ := List.exists_cons_of_ne_nil hne
  rintro d ⟨⟩
  exact kind.goesOn_of_isBlank (hgap c List.mem_cons_self)

/-- A lexeme is read as its token where the next character does not go on with it. -/
theorem place_lexeme (table : LineTable) (offset : Nat) {kind : TokenKind}
    (hspelled : kind.IsSpelled) {rest : List Char} (hrest : Stops kind.goesOn rest) :
    let stop := offset + byteLength kind.spelling.toList
    place table offset (pieces (kind.spelling.toList ++ rest)) =
      .ok { kind := kind, span := table.span offset stop } :: place table stop (pieces rest) := by
  rw [pieces_append hspelled.ne_nil (hspelled.scan_append hrest), place]

/-- Lexemes with blanks between them are read as their tokens, without errors. -/
theorem place_separated (table : LineTable) {gap : List Char} (hne : gap ≠ [])
    (hgap : ∀ c ∈ gap, isBlank c = true) {kinds : List TokenKind}
    (hspelled : ∀ kind ∈ kinds, kind.IsSpelled) :
    ∀ offset,
      let results := place table offset
        (pieces (gap.intercalate (kinds.map (·.spelling.toList))))
      (goodTokens results).map Token.kind = kinds ∧ lexErrors results = [] := by
  induction kinds with
  | nil => exact fun offset => ⟨rfl, rfl⟩
  | cons kind rest ih =>
      intro offset
      obtain ⟨hkind, hlater⟩ := List.forall_mem_cons.mp hspelled
      by_cases hlast : rest = []
      · subst hlast
        rw [List.map_singleton, List.intercalate_singleton, ← List.append_nil kind.spelling.toList,
          place_lexeme table offset hkind (by rintro c ⟨⟩)]
        exact ⟨rfl, rfl⟩
      · have hmore : rest.map (·.spelling.toList) ≠ [] := List.map_eq_nil_iff.not.mpr hlast
        rw [List.map_cons, List.intercalate_cons_of_ne_nil hmore, List.append_assoc,
          place_lexeme table offset hkind (stops_of_isBlank kind hne hgap _),
          place_blanks table _ hgap]
        obtain ⟨htokens, herrors⟩ := ih hlater
          (offset + byteLength kind.spelling.toList + byteLength gap)
        exact ⟨congrArg (kind :: ·) htokens, herrors⟩

end Lexer

/-- The slices of the tokens of a source, one space between two of them. -/
def spacedSlices (source : List Char) : List Char :=
  [' '].intercalate ((goodTokens (lex source)).map fun token => token.span.slice source)

theorem spacedSlices_eq (source : List Char) :
    spacedSlices source =
      [' '].intercalate (((goodTokens (lex source)).map Token.kind).map (·.spelling.toList)) := by
  rw [spacedSlices, List.map_map]
  congr 1
  apply List.map_congr_left
  intro token hmem
  rw [Function.comp_apply, ← slice_of_mem_goodTokens hmem, String.toList_ofList]

/-- The slices of the tokens of a source, one space between two of them, are read as the
same tokens and without errors. -/
theorem lex_spacedSlices (source : List Char) :
    lexErrors (lex (spacedSlices source)) = [] ∧
      (goodTokens (lex (spacedSlices source))).map Token.kind =
        (goodTokens (lex source)).map Token.kind := by
  have hspelled : ∀ kind ∈ (goodTokens (lex source)).map Token.kind, kind.IsSpelled :=
    List.forall_mem_map.mpr fun _ => isSpelled_of_mem_goodTokens
  have hspace : ∀ c ∈ [' '], Lexer.isBlank c = true := List.forall_mem_singleton.mpr rfl
  obtain ⟨htokens, herrors⟩ := Lexer.place_separated (LineTable.ofText (spacedSlices source))
    (List.cons_ne_nil _ _) hspace hspelled 0
  rw [← spacedSlices_eq] at htokens herrors
  exact ⟨herrors, htokens⟩

/-- Symbols that would become others side by side, and text that looks like a comment
inside a string. -/
example :
    spacedSlices "x<=-1.5e3/*a*/==!\"//\\\" \"".toList =
      "x <= - 1.5e3 == ! \"//\\\" \"".toList := by
  decide +kernel

end DeclCheck
