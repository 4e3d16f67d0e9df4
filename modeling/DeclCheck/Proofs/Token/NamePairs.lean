import DeclCheck.Proofs.Token.Order

/-!
# Names before parentheses

A name with an opening parenthesis right after it either heads a function, if a
type stands right before it, or calls one.  This is read off the tokens alone: a
pair is a header or a call by the token before it, and its closing parenthesis is
found by counting.
-/

namespace DeclCheck

/-- Whether an opening parenthesis comes next. -/
def opensParen : List Token → Bool
  | [] => false
  | token :: _ => token.kind = .symbol .openParen

/-- The span of the parenthesis that closes the current one, when `depth` more
have been opened since. -/
def closing? : Nat → List Token → Option Span
  | _, [] => none
  | depth, token :: rest =>
      if token.kind = .symbol .openParen then closing? (depth + 1) rest
      else if token.kind = .symbol .closeParen then
        if depth = 0 then some token.span else closing? (depth - 1) rest
      else closing? depth rest

/-- A name and the opening parenthesis after it. -/
structure NamePair where
  name : String
  /-- Where the name stands. -/
  span : Span
  /-- Whether a type stands right before the name. -/
  header : Bool
  /-- Where the parenthesis is closed again. -/
  closing : Option Span
  deriving DecidableEq, Repr

/-- The pairs among some tokens, in order.  The flag says whether the token
before them is a type. -/
def namePairs : Bool → List Token → List NamePair
  | _, [] => []
  | afterType, token :: rest =>
      let others := namePairs token.kind.typeName?.isSome rest
      match token.kind with
      | .identifier name =>
          if opensParen rest then
            { name := name, span := token.span, header := afterType,
              closing := closing? 0 rest.tail } :: others
          else others
      | _ => others

/-- From the start of the name to the end of the parenthesis that closes the
pair. -/
def NamePair.extent (pair : NamePair) : Option Span :=
  pair.closing.map fun closing => { pair.span with stop := closing.stop }

/-- The calls among some pairs whose name none of the headers has. -/
def undefinedPairs (pairs : List NamePair) : List NamePair :=
  pairs.filter fun pair =>
    !pair.header && !pairs.any fun other => other.header && other.name = pair.name

@[simp]
theorem closing?_open (depth : Nat) (span : Span) (rest : List Token) :
    closing? depth (⟨.symbol .openParen, span⟩ :: rest) = closing? (depth + 1) rest := by
  rw [closing?, if_pos rfl]

@[simp]
theorem closing?_close_succ (depth : Nat) (span : Span) (rest : List Token) :
    closing? (depth + 1) (⟨.symbol .closeParen, span⟩ :: rest) =
      closing? depth rest := by
  simp [closing?]

theorem closing?_other {kind : TokenKind} (hopen : kind ≠ .symbol .openParen)
    (hclose : kind ≠ .symbol .closeParen) (depth : Nat) (span : Span)
    (rest : List Token) :
    closing? depth (⟨kind, span⟩ :: rest) = closing? depth rest := by
  rw [closing?, if_neg hopen, if_neg hclose]

/-! ## Order -/

theorem exists_of_closing? {tokens : List Token} {span : Span} :
    ∀ {depth : Nat}, closing? depth tokens = some span →
      ∃ token ∈ tokens, token.span = span := by
  induction tokens with
  | nil =>
      intro depth hclosing
      cases hclosing
  | cons token rest ih =>
      intro depth hclosing
      rw [closing?] at hclosing
      have hlater : ∀ {inner : Nat}, closing? inner rest = some span →
          ∃ other ∈ token :: rest, other.span = span := by
        intro inner hinner
        obtain ⟨other, hother, hspan⟩ := ih hinner
        exact ⟨other, List.mem_cons_of_mem _ hother, hspan⟩
      split at hclosing
      · exact hlater hclosing
      · split at hclosing
        · split at hclosing
          · exact ⟨token, List.mem_cons_self, Option.some.inj hclosing⟩
          · exact hlater hclosing
        · exact hlater hclosing

/-- The names of the pairs stand where the tokens do, in the same order. -/
theorem spans_sublist (tokens : List Token) :
    ∀ afterType : Bool,
      ((namePairs afterType tokens).map NamePair.span).Sublist
        (tokens.map Token.span) := by
  induction tokens with
  | nil => exact fun afterType => List.Sublist.refl _
  | cons token rest ih =>
      intro afterType
      have hrest := ih token.kind.typeName?.isSome
      rw [namePairs]
      split
      · split
        · exact hrest.cons_cons token.span
        · exact hrest.cons token.span
      · exact hrest.cons token.span

theorem InOrder.tail {offset : Nat} {token : Token} {rest : List Token}
    (horder : InOrder offset (token :: rest)) : InOrder token.span.stop rest where
  nonempty other hmem := horder.nonempty other (List.mem_cons_of_mem _ hmem)
  offset_le _ hmem := List.rel_of_pairwise_cons horder.pairwise hmem
  pairwise := (List.pairwise_cons.mp horder.pairwise).2

theorem InOrder.pairwise_start {offset : Nat} {tokens : List Token}
    (horder : InOrder offset tokens) :
    (tokens.map Token.span).Pairwise fun first second =>
      first.start < second.start := by
  rw [List.pairwise_map]
  refine horder.pairwise.imp_of_mem ?_
  intro first second hfirst hsecond hle
  exact Nat.lt_of_lt_of_le (horder.nonempty first hfirst) hle

/-- Names come in the order of the text. -/
theorem pairwise_namePairs {offset : Nat} {tokens : List Token}
    (horder : InOrder offset tokens) (afterType : Bool) :
    (namePairs afterType tokens).Pairwise fun first second =>
      first.span.start < second.span.start := by
  have hsorted := horder.pairwise_start.sublist (spans_sublist tokens afterType)
  rwa [List.pairwise_map] at hsorted

theorem start_of_extent {pair : NamePair} {span : Span}
    (hextent : pair.extent = some span) : span.start = pair.span.start := by
  obtain ⟨closing, _, rfl⟩ := Option.map_eq_some_iff.mp hextent
  rfl

/-- The extents of the undefined calls come in the order of the text. -/
theorem pairwise_extent_undefinedPairs {offset : Nat} {tokens : List Token}
    (horder : InOrder offset tokens) (afterType : Bool) :
    ((undefinedPairs (namePairs afterType tokens)).filterMap NamePair.extent).Pairwise
      fun first second => first.start < second.start := by
  rw [List.pairwise_filterMap]
  refine ((pairwise_namePairs horder afterType).sublist List.filter_sublist).imp ?_
  intro first second hlt firstSpan hfirst secondSpan hsecond
  rw [start_of_extent hfirst, start_of_extent hsecond]
  exact hlt

/-- A pair is closed after its name, so that the name and the parenthesis cover
everything between them. -/
theorem cover_closing {tokens : List Token} {pair : NamePair} {closing : Span} :
    ∀ {offset : Nat} {afterType : Bool}, InOrder offset tokens →
      pair ∈ namePairs afterType tokens → pair.closing = some closing →
      pair.span.cover closing = { pair.span with stop := closing.stop } := by
  induction tokens with
  | nil =>
      intro offset afterType _ hmem
      cases hmem
  | cons token rest ih =>
      intro offset afterType horder hmem hclosing
      have hlater : pair ∈ namePairs token.kind.typeName?.isSome rest →
          pair.span.cover closing = { pair.span with stop := closing.stop } :=
        fun hmem => ih horder.tail hmem hclosing
      rw [namePairs] at hmem
      split at hmem
      · split at hmem
        · rcases List.mem_cons.mp hmem with rfl | hmem
          · obtain ⟨closer, hcloser, rfl⟩ := exists_of_closing? hclosing
            have hcloserMem := List.mem_of_mem_tail hcloser
            have hname := horder.nonempty token List.mem_cons_self
            have hafter := horder.tail.offset_le closer hcloserMem
            have hwidth := horder.tail.nonempty closer hcloserMem
            have hstart : token.span.start ≤ closer.span.start := by omega
            have hstop : token.span.stop ≤ closer.span.stop := by omega
            simp only [Span.cover, Nat.min_eq_left hstart, Nat.max_eq_right hstop]
          · exact hlater hmem
        · exact hlater hmem
      · exact hlater hmem

theorem map_cover_closing {offset : Nat} {tokens : List Token}
    (horder : InOrder offset tokens) {afterType : Bool} {pair : NamePair}
    (hmem : pair ∈ namePairs afterType tokens) :
    pair.closing.map pair.span.cover = pair.extent := by
  rw [NamePair.extent]
  cases hclosing : pair.closing with
  | none => rfl
  | some closing => exact congrArg some (cover_closing horder hmem hclosing)

/-! ## Mentions -/

/-- What a pair says: that a function of the name is defined, or that one is called
by an expression with the span. -/
inductive Mention where
  | header (name : String)
  | call (name : String) (span : Option Span)
  deriving DecidableEq, Repr

def NamePair.mention (pair : NamePair) : Mention :=
  if pair.header then .header pair.name
  else .call pair.name (pair.closing.map pair.span.cover)

theorem mention_eq_header_iff {pair : NamePair} {name : String} :
    pair.mention = .header name ↔ (pair.header && pair.name = name) = true := by
  rw [NamePair.mention]
  cases pair.header <;> simp

/-- What the pairs among some tokens say. -/
def mentions (afterType : Bool) (tokens : List Token) : List Mention :=
  (namePairs afterType tokens).map NamePair.mention

/-- Neither a name nor a type. -/
def isPlain : TokenKind → Bool
  | .identifier _ => false
  | .type _ => false
  | _ => true

theorem mentions_plain {kind : TokenKind} (hplain : isPlain kind = true)
    (afterType : Bool) (span : Span) (rest : List Token) :
    mentions afterType (⟨kind, span⟩ :: rest) = mentions false rest := by
  cases kind with
  | identifier name => cases hplain
  | type name => cases hplain
  | _ => rfl

@[simp]
theorem mentions_type (afterType : Bool) (name : TypeName) (span : Span)
    (rest : List Token) :
    mentions afterType (⟨.type name, span⟩ :: rest) = mentions true rest := rfl

theorem mentions_identifier {rest : List Token} (hopens : opensParen rest = false)
    (afterType : Bool) (name : String) (span : Span) :
    mentions afterType (⟨.identifier name, span⟩ :: rest) = mentions false rest := by
  rw [mentions, namePairs, hopens]
  rfl

@[simp]
theorem mentions_header (name : String) (span opening : Span) (rest : List Token) :
    mentions true
        (⟨.identifier name, span⟩ :: ⟨.symbol .openParen, opening⟩ :: rest) =
      .header name :: mentions false rest := rfl

@[simp]
theorem mentions_call (name : String) (span opening : Span) (rest : List Token) :
    mentions false
        (⟨.identifier name, span⟩ :: ⟨.symbol .openParen, opening⟩ :: rest) =
      .call name ((closing? 0 rest).map span.cover) :: mentions false rest := rfl

end DeclCheck
