import DeclCheck.Proofs.Grammar.FirstToken
import DeclCheck.Proofs.Program.Sites
import DeclCheck.Proofs.Token.Sequences

/-!
# The text of an expression

The lexemes of an expression are the spellings of the tokens it is derived from.  No
two tokens that stand next to one another in an expression run together when nothing
is written between them, so its compact text has the same tokens again.
-/

namespace DeclCheck

namespace Grammar

/-! ## Lexemes -/

theorem DerivesArgs.ne_nil {tokens : List Token} {args : List Expr}
    (hargs : DerivesArgs tokens args) : args ≠ [] := by
  cases hargs <;> simp

theorem lexemesOfEach_ne_nil {exprs : List Expr} (hexprs : exprs ≠ []) :
    Expr.lexemesOfEach exprs ≠ [] := by
  cases exprs with
  | nil => exact absurd rfl hexprs
  | cons first rest => simp [Expr.lexemesOfEach]

mutual

theorem DerivesExpr.lexemes_eq :
    ∀ {cls : ExprClass} {tokens : List Token} {expr : Expr},
      DerivesExpr cls tokens expr →
      expr.lexemes = tokens.map (·.kind.spelling)
  | _, _, _, .integer _ _ => rfl
  | _, _, _, .float _ _ => rfl
  | _, _, _, .string _ _ => rfl
  | _, _, _, .boolean _ _ => rfl
  | _, _, _, .identifier _ _ => rfl
  | _, _, _, .emptyCall _ _ _ _ => rfl
  | _, _, _, .call _ _ _ _ hargs => by
      rw [Expr.lexemes, hargs.lexemes_eq, List.map_cons, List.map_cons, List.map_append]
      rfl
  | _, _, _, .paren _ _ hinner => by
      rw [Expr.lexemes, hinner.lexemes_eq, List.map_cons, List.map_append]
      rfl
  | _, _, _, .ofPrimary hprimary => hprimary.lexemes_eq
  | _, _, _, .unary _ _ hoperand => by
      rw [Expr.lexemes, hoperand.lexemes_eq, List.map_cons]
      rfl
  | _, _, _, .ofOperand _ hoperand => hoperand.lexemes_eq
  | _, _, _, .binary _ _ hleft hright => by
      rw [Expr.lexemes, hleft.lexemes_eq, hright.lexemes_eq, List.map_append, List.map_cons]
      rfl
  | _, _, _, .ofChain hchain => hchain.lexemes_eq
  | _, _, _, .assign _ _ _ hvalue => by
      rw [Expr.lexemes, hvalue.lexemes_eq, List.map_cons, List.map_cons]
      rfl

theorem DerivesArgs.lexemes_eq :
    ∀ {tokens : List Token} {args : List Expr}, DerivesArgs tokens args →
      List.intercalate [Symbol.comma.spelling] (Expr.lexemesOfEach args) =
        tokens.map (·.kind.spelling)
  | _, _, .last hexpr => by
      rw [Expr.lexemesOfEach, hexpr.lexemes_eq]
      simp [List.intercalate, Expr.lexemesOfEach]
  | _, _, .more _ hexpr hrest => by
      rw [Expr.lexemesOfEach, List.intercalate_cons_of_ne_nil (lexemesOfEach_ne_nil hrest.ne_nil),
        List.append_assoc,
        hexpr.lexemes_eq, hrest.lexemes_eq, List.map_append, List.map_cons]
      rfl

end

/-! ## Tokens next to one another -/

/-- The kinds of tokens that an expression can end with. -/
def closesExpr : TokenKind → Bool
  | .integer _ => true
  | .float _ => true
  | .string _ => true
  | .identifier _ => true
  | .keyword _ => true
  | .symbol mark => mark = .closeParen
  | _ => false

/-- Tokens of these kinds may stand next to one another in an expression. -/
inductive Adjoins : TokenKind → TokenKind → Prop
  | after {first : TokenKind} (hfirst : closesExpr first = true) (mark : Symbol) :
      Adjoins first (.symbol mark)
  | before (mark : Symbol) {second : TokenKind} (hsecond : startsExpr second = true) :
      Adjoins (.symbol mark) second
  | nothing : Adjoins (.symbol .openParen) (.symbol .closeParen)

/-- Kinds of tokens of which each two neighbours may stand next to one another, and
that begin and end like an expression. -/
structure Linked (kinds : List TokenKind) : Prop where
  ne_nil : kinds ≠ []
  starts : ∀ kind ∈ kinds.head?, startsExpr kind = true
  closes : ∀ kind ∈ kinds.getLast?, closesExpr kind = true
  chain : kinds.IsChain Adjoins

theorem linked_single {kind : TokenKind} (hstarts : startsExpr kind = true)
    (hcloses : closesExpr kind = true) : Linked [kind] where
  ne_nil := by simp
  starts := by simpa using hstarts
  closes := by simpa using hcloses
  chain := .singleton kind

theorem Linked.chain_cons {kinds : List TokenKind} (hkinds : Linked kinds)
    (mark : Symbol) : (.symbol mark :: kinds).IsChain Adjoins := by
  rw [List.isChain_cons]
  exact ⟨fun kind hkind => .before mark (hkinds.starts kind hkind), hkinds.chain⟩

/-- Two expressions with any symbol between them. -/
theorem Linked.join {left right : List TokenKind} (hleft : Linked left)
    (mark : Symbol) (hright : Linked right) : Linked (left ++ .symbol mark :: right) where
  ne_nil := by simp
  starts := by
    obtain ⟨first, rest, rfl⟩ := List.exists_cons_of_ne_nil hleft.ne_nil
    exact hleft.starts
  closes := by
    obtain ⟨first, rest, rfl⟩ := List.exists_cons_of_ne_nil hright.ne_nil
    intro kind hkind
    apply hright.closes kind
    rwa [List.getLast?_append_cons, List.getLast?_cons_cons] at hkind
  chain := by
    apply hleft.chain.append (hright.chain_cons mark)
    rintro last hlast _ ⟨⟩
    exact .after (hleft.closes last hlast) mark

theorem Linked.cons_symbol {kinds : List TokenKind} {mark : Symbol}
    (hmark : startsExpr (.symbol mark) = true) (hkinds : Linked kinds) :
    Linked (.symbol mark :: kinds) where
  ne_nil := by simp
  starts := by simpa using hmark
  closes := by
    obtain ⟨first, rest, rfl⟩ := List.exists_cons_of_ne_nil hkinds.ne_nil
    exact hkinds.closes
  chain := hkinds.chain_cons mark

theorem Linked.close {kinds : List TokenKind} (hkinds : Linked kinds) :
    Linked (kinds ++ [.symbol .closeParen]) where
  ne_nil := by simp
  starts := by
    obtain ⟨first, rest, rfl⟩ := List.exists_cons_of_ne_nil hkinds.ne_nil
    exact hkinds.starts
  closes := by simp [closesExpr]
  chain := by
    apply hkinds.chain.append (.singleton _)
    rintro last hlast _ ⟨⟩
    exact .after (hkinds.closes last hlast) _

mutual

theorem DerivesExpr.linked :
    ∀ {cls : ExprClass} {tokens : List Token} {expr : Expr},
      DerivesExpr cls tokens expr → Linked (tokens.map Token.kind)
  | _, _, _, .integer _ _ => linked_single rfl rfl
  | _, _, _, .float _ _ => linked_single rfl rfl
  | _, _, _, .string _ _ => linked_single rfl rfl
  | _, _, _, .boolean _ value => linked_single (by cases value <;> rfl) rfl
  | _, _, _, .identifier _ _ => linked_single rfl rfl
  | _, _, _, .emptyCall _ _ _ name =>
      { ne_nil := by simp
        starts := by simp [startsExpr]
        closes := by simp [closesExpr]
        chain := .cons_cons (.after rfl _) (.cons_cons .nothing (.singleton _)) }
  | _, _, _, .call _ _ _ name hargs => by
      have hname : Linked [.identifier name] := linked_single rfl rfl
      simpa using hname.join .openParen hargs.linked.close
  | _, _, _, .paren _ _ hinner => by
      simpa using hinner.linked.close.cons_symbol rfl
  | _, _, _, .ofPrimary hprimary => hprimary.linked
  | _, _, _, .unary _ op hoperand =>
      hoperand.linked.cons_symbol (by cases op <;> rfl)
  | _, _, _, .ofOperand _ hoperand => hoperand.linked
  | _, _, _, .binary _ op hleft hright => by
      simpa using hleft.linked.join op.symbol hright.linked
  | _, _, _, .ofChain hchain => hchain.linked
  | _, _, _, .assign _ _ name hvalue => by
      have hname : Linked [.identifier name] := linked_single rfl rfl
      simpa using hname.join .assign hvalue.linked

theorem DerivesArgs.linked :
    ∀ {tokens : List Token} {args : List Expr}, DerivesArgs tokens args →
      Linked (tokens.map Token.kind)
  | _, _, .last hexpr => hexpr.linked
  | _, _, .more _ hexpr hrest => by
      simpa using hexpr.linked.join .comma hrest.linked

end

/-! ## Neighbours do not run together -/

/-- Symbols start with characters that go on with no word and no number. -/
theorem goesOn_of_closesExpr {kind : TokenKind} (hkind : closesExpr kind = true)
    (mark : Symbol) : Lexer.Stops kind.goesOn mark.chars := by
  have hmark : Lexer.Stops (fun c => Lexer.isWordChar c || c = '.') mark.chars := by
    intro c hc
    cases mark <;> cases hc <;> decide
  cases kind with
  | symbol closing =>
      obtain rfl : closing = .closeParen := of_decide_eq_true hkind
      exact fun _ _ => rfl
  | string text => exact fun _ _ => rfl
  | _ => exact hmark

theorem symbol_goesOn_eq_false {mark : Symbol} {c : Char} (hequal : c ≠ '=')
    (hslash : c ≠ '/') (hstar : c ≠ '*') : mark.goesOn c = false := by
  cases mark <;> simp [Symbol.goesOn, hequal, hslash, hstar]

/-- What an expression starts with makes of no symbol a longer one or a comment. -/
theorem stops_of_startsExpr (mark : Symbol) {kind : TokenKind} {text : List Char}
    (hstarts : startsExpr kind = true) (hlexeme : Lexer.Lexeme kind text) :
    Lexer.Stops mark.goesOn text := by
  have hword : ∀ {c : Char}, Lexer.isWordChar c = true → mark.goesOn c = false := by
    intro c hc
    apply symbol_goesOn_eq_false
    · rintro rfl
      exact absurd hc (by decide)
    · exact Lexer.ne_slash_of_isWordChar hc
    · rintro rfl
      exact absurd hc (by decide)
  have hdigits : ∀ {digits rest : List Char}, Lexer.IsDigits digits →
      Lexer.Stops mark.goesOn (digits ++ rest) := by
    intro digits rest hdigits c hc
    cases digits with
    | nil => exact absurd rfl hdigits.ne_nil
    | cons d digits =>
        cases hc
        exact hword (Lexer.isWordChar_of_isDigit (hdigits.all _ List.mem_cons_self))
  cases hlexeme with
  | word hstart hrest =>
      rintro c ⟨⟩
      exact hword (Lexer.isWordChar_of_isWordStart hstart)
  | integer hinteger =>
      rw [← List.append_nil text]
      exact hdigits hinteger
  | float hinteger hfraction => exact hdigits hinteger
  | string hrun =>
      rintro c ⟨⟩
      exact symbol_goesOn_eq_false (by decide) (by decide) (by decide)
  | symbol first =>
      simp only [startsExpr, Bool.or_eq_true, decide_eq_true_eq] at hstarts
      rcases hstarts with (rfl | rfl) | rfl <;> rintro c ⟨⟩ <;>
        exact symbol_goesOn_eq_false (by decide) (by decide) (by decide)

theorem Adjoins.apart {first second : TokenKind} (hadjoins : Adjoins first second)
    (hspelled : second.IsSpelled) : first.Apart second := by
  cases hadjoins with
  | after hfirst mark =>
      rw [TokenKind.Apart, (Lexer.Lexeme.symbol mark).spelling]
      exact goesOn_of_closesExpr hfirst mark
  | before mark hsecond => exact stops_of_startsExpr mark hsecond hspelled
  | nothing => exact fun _ _ => rfl

theorem DerivesExpr.text_eq {cls : ExprClass} {tokens : List Token} {expr : Expr}
    (hexpr : DerivesExpr cls tokens expr) :
    expr.text.toList = Lexer.spelled (tokens.map Token.kind) := by
  rw [Expr.text, hexpr.lexemes_eq, String.toList_join, Lexer.spelled, List.flatMap_map,
    List.flatMap_map]

/-- The compact text of an expression, with a semicolon after it, has the tokens
that the expression was derived from. -/
theorem DerivesExpr.lex_text {cls : ExprClass} {tokens : List Token} {expr : Expr}
    (hexpr : DerivesExpr cls tokens expr)
    (hspelled : ∀ token ∈ tokens, token.kind.IsSpelled) :
    let results := lex (expr.text ++ ";").toList
    (goodTokens results).map Token.kind =
        tokens.map Token.kind ++ [TokenKind.symbol .semicolon] ∧
      lexErrors results = [] := by
  have hkinds : ∀ kind ∈ tokens.map Token.kind ++ [TokenKind.symbol .semicolon],
      kind.IsSpelled := by
    intro kind hkind
    rcases List.mem_append.mp hkind with hkind | hkind
    · obtain ⟨token, htoken, rfl⟩ := List.mem_map.mp hkind
      exact hspelled token htoken
    · rw [List.mem_singleton.mp hkind]
      exact .symbol .semicolon
  have hlinked := hexpr.linked
  have hadjoins :
      (tokens.map Token.kind ++ [TokenKind.symbol .semicolon]).IsChain Adjoins := by
    apply hlinked.chain.append (.singleton _)
    rintro last hlast _ ⟨⟩
    exact .after (hlinked.closes last hlast) _
  have hapart :
      (tokens.map Token.kind ++ [TokenKind.symbol .semicolon]).IsChain TokenKind.Apart :=
    hadjoins.imp_of_mem_imp fun first second _ hsecond hboth =>
      hboth.apart (hkinds second hsecond)
  have htext : (expr.text ++ ";").toList =
      Lexer.spelled (tokens.map Token.kind ++ [TokenKind.symbol .semicolon]) := by
    rw [String.toList_append, hexpr.text_eq, Lexer.spelled, Lexer.spelled, List.flatMap_append]
    rfl
  rw [htext]
  exact lex_spelled hkinds hapart

/-! ## Parts of an expression -/

/-- What is an expression of any class is an expression. -/
theorem DerivesExpr.toExpression {cls : ExprClass} {tokens : List Token} {expr : Expr}
    (hexpr : DerivesExpr cls tokens expr) : DerivesExpr .expression tokens expr := by
  have hconjunction : ∀ {tokens expr}, DerivesExpr (.level .conjunction) tokens expr →
      DerivesExpr .expression tokens expr := fun h => .ofChain (.ofOperand _ h)
  have hequality : ∀ {tokens expr}, DerivesExpr (.level .equality) tokens expr →
      DerivesExpr .expression tokens expr := fun h => hconjunction (.ofOperand _ h)
  have hcomparison : ∀ {tokens expr}, DerivesExpr (.level .comparison) tokens expr →
      DerivesExpr .expression tokens expr := fun h => hequality (.ofOperand _ h)
  have hsum : ∀ {tokens expr}, DerivesExpr (.level .sum) tokens expr →
      DerivesExpr .expression tokens expr := fun h => hcomparison (.ofOperand _ h)
  have hproduct : ∀ {tokens expr}, DerivesExpr (.level .product) tokens expr →
      DerivesExpr .expression tokens expr := fun h => hsum (.ofOperand _ h)
  have hprefixed : ∀ {tokens expr}, DerivesExpr .prefixed tokens expr →
      DerivesExpr .expression tokens expr := fun h => hproduct (.ofOperand _ h)
  cases cls with
  | expression => exact hexpr
  | prefixed => exact hprefixed hexpr
  | primary => exact hprefixed (.ofPrimary hexpr)
  | level precedence =>
      cases precedence with
      | disjunction => exact .ofChain hexpr
      | conjunction => exact hconjunction hexpr
      | equality => exact hequality hexpr
      | comparison => exact hcomparison hexpr
      | sum => exact hsum hexpr
      | product => exact hproduct hexpr

/-- A primary expression is an operand of every level. -/
theorem DerivesExpr.toOperand {tokens : List Token} {expr : Expr}
    (hexpr : DerivesExpr .primary tokens expr) (level : Precedence) :
    DerivesExpr (operands level) tokens expr := by
  have hprefixed := DerivesExpr.ofPrimary hexpr
  have hproduct := DerivesExpr.ofOperand .product hprefixed
  have hsum := DerivesExpr.ofOperand .sum hproduct
  have hcomparison := DerivesExpr.ofOperand .comparison hsum
  have hequality := DerivesExpr.ofOperand .equality hcomparison
  have hconjunction := DerivesExpr.ofOperand .conjunction hequality
  cases level with
  | product => exact hprefixed
  | sum => exact hproduct
  | comparison => exact hsum
  | equality => exact hcomparison
  | conjunction => exact hequality
  | disjunction => exact hconjunction

theorem DerivesArgs.element :
    ∀ {tokens : List Token} {args : List Expr}, DerivesArgs tokens args →
      ∀ arg ∈ args, ∃ phrase, phrase <:+: tokens ∧ DerivesExpr .expression phrase arg
  | tokens, _, .last hexpr, arg, harg => by
      obtain rfl := List.mem_singleton.mp harg
      exact ⟨tokens, List.infix_rfl, hexpr⟩
  | _, _, .more _ hexpr hrest, arg, harg => by
      rcases List.mem_cons.mp harg with rfl | harg
      · exact ⟨_, (List.prefix_append _ _).isInfix, hexpr⟩
      · obtain ⟨phrase, hphrase, harg⟩ := hrest.element arg harg
        exact ⟨phrase, hphrase.trans (List.suffix_append_of_suffix
          (List.suffix_cons _ _)).isInfix, harg⟩

/-- What stands directly inside an expression was derived from a part of its
tokens. -/
theorem DerivesExpr.child :
    ∀ {cls : ExprClass} {tokens : List Token} {expr : Expr},
      DerivesExpr cls tokens expr → ∀ inner ∈ expr.children,
        ∃ phrase, phrase <:+: tokens ∧ DerivesExpr .expression phrase inner
  | _, _, _, .call _ _ _ _ hargs, inner, hinner => by
      obtain ⟨phrase, hphrase, harg⟩ := hargs.element inner hinner
      refine ⟨phrase, hphrase.trans ?_, harg⟩
      exact List.infix_cons (List.infix_cons (List.prefix_append _ _).isInfix)
  | _, _, _, .paren _ _ hexpr, inner, hinner => by
      obtain rfl := List.mem_singleton.mp hinner
      exact ⟨_, List.infix_cons (List.prefix_append _ _).isInfix, hexpr⟩
  | _, _, _, .ofPrimary hprimary, inner, hinner => hprimary.child inner hinner
  | _, _, _, .unary _ _ hoperand, inner, hinner => by
      obtain rfl := List.mem_singleton.mp hinner
      exact ⟨_, (List.suffix_cons _ _).isInfix, hoperand.toExpression⟩
  | _, _, _, .ofOperand _ hoperand, inner, hinner => hoperand.child inner hinner
  | _, _, _, .binary _ _ hleft hright, inner, hinner => by
      rcases List.mem_cons.mp hinner with rfl | hinner
      · exact ⟨_, (List.prefix_append _ _).isInfix, hleft.toExpression⟩
      · obtain rfl := List.mem_singleton.mp hinner
        exact ⟨_, (List.suffix_append_of_suffix (List.suffix_cons _ _)).isInfix,
          hright.toExpression⟩
  | _, _, _, .ofChain hchain, inner, hinner => hchain.child inner hinner
  | _, _, _, .assign _ _ _ hvalue, inner, hinner => by
      obtain rfl := List.mem_singleton.mp hinner
      exact ⟨_, List.infix_cons (List.infix_cons List.infix_rfl), hvalue⟩

/-- So was what stands anywhere inside it. -/
theorem DerivesExpr.within {tokens : List Token} {expr node : Expr}
    (hexpr : DerivesExpr .expression tokens expr) (hnode : expr.Within node) :
    ∃ phrase, phrase <:+: tokens ∧ DerivesExpr .expression phrase node := by
  induction hnode generalizing tokens with
  | self node => exact ⟨tokens, List.infix_rfl, hexpr⟩
  | child hinner _ ih =>
      obtain ⟨phrase, hphrase, hderives⟩ := hexpr.child _ hinner
      obtain ⟨innermost, hinnermost, hnode⟩ := ih hderives
      exact ⟨innermost, hinnermost.trans hphrase, hnode⟩

end Grammar

end DeclCheck
