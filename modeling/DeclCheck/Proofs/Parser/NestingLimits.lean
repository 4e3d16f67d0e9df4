import DeclCheck.Proofs.Grammar.Text
import DeclCheck.Proofs.Parser.SingleItem
import DeclCheck.Proofs.Token.Joined

/-!
# How deep expressions may be nested

Parentheses, arguments and assigned values take four units of the nesting budget for each
level, operators one unit each.  The whole budget is 256 units, four of which go to the
outermost expression.  So 63 levels of the former and 252 operators can be written in a row,
and one more of either is an error.
-/

namespace DeclCheck

/-! ## Texts of tokens -/

namespace Lexer

/-- Wherever the text stands, it is read as tokens of the kinds, without errors. -/
def ReadAs (text : List Char) (kinds : List TokenKind) : Prop :=
  ∀ (table : LineTable) (offset : Nat),
    let results := place table offset (pieces text)
    (goodTokens results).map Token.kind = kinds ∧ lexErrors results = []

theorem readAs_nil : ReadAs [] [] :=
  fun _ _ => ⟨rfl, rfl⟩

theorem ReadAs.spaces {text : List Char} {kinds : List TokenKind} (htext : ReadAs text kinds)
    (count : Nat) : ReadAs (List.replicate count ' ' ++ text) kinds := by
  intro table offset
  have hblanks : ∀ c ∈ List.replicate count ' ', isBlank c = true := by
    intro c hc
    rw [List.eq_of_mem_replicate hc]
    rfl
  rw [place_blanks table offset hblanks]
  exact htext table _

theorem ReadAs.token {kind : TokenKind} {lexeme text : List Char} {kinds : List TokenKind}
    (htext : ReadAs text kinds) (hlexeme : Lexeme kind lexeme)
    (hstops : Stops kind.goesOn text) : ReadAs (lexeme ++ text) (kind :: kinds) := by
  intro table offset
  rw [pieces_append hlexeme.ne_nil (hlexeme.scan_append hstops), place]
  obtain ⟨hkinds, herrors⟩ := htext table (offset + byteLength lexeme)
  exact ⟨congrArg (kind :: ·) hkinds, herrors⟩

theorem ReadAs.lex {text : List Char} {kinds : List TokenKind} (htext : ReadAs text kinds) :
    (goodTokens (lex text)).map Token.kind = kinds ∧ lexErrors (lex text) = [] :=
  htext _ 0

/-- Symbols go on with no word and no number. -/
theorem stops_chars (mark : Symbol) (rest : List Char) :
    Stops (fun c => isWordChar c || c = '.') (mark.chars ++ rest) := by
  intro c hc
  cases mark <;> cases hc <;> decide

theorem Stops.spaces {goesOn : Char → Bool} {text : List Char} (hstops : Stops goesOn text)
    (hspace : goesOn ' ' = false) (count : Nat) :
    Stops goesOn (List.replicate count ' ' ++ text) := by
  cases count with
  | zero => exact hstops
  | succ count =>
      rintro c ⟨⟩
      exact hspace

end Lexer

/-! ## Expressions written out -/

namespace Grammar

open Lexer

/-- The text is that of an expression: it is read as the tokens of the expression if what
follows goes on with no word, and it makes no symbol before it a longer one. -/
structure Writes (cls : ExprClass) (text : List Char) (tokens : List Token) (expr : Expr) :
    Prop where
  derives : DerivesExpr cls tokens expr
  apart : ∀ (mark : Symbol) (rest : List Char), Stops mark.goesOn (text ++ rest)
  readAs : ∀ {rest : List Char} {kinds : List TokenKind},
    Stops (fun c => isWordChar c || c = '.') rest → ReadAs rest kinds →
      ReadAs (text ++ rest) (tokens.map Token.kind ++ kinds)

/-- What an expression starts with makes no symbol before it a longer one. -/
theorem stops_append_of_startsExpr {kind : TokenKind} {lexeme : List Char}
    (hlexeme : Lexeme kind lexeme) (hstarts : startsExpr kind = true) (mark : Symbol)
    (rest : List Char) : Stops mark.goesOn (lexeme ++ rest) := by
  have hstops := stops_of_startsExpr mark hstarts hlexeme
  obtain ⟨c, more, rfl⟩ := List.exists_cons_of_ne_nil hlexeme.ne_nil
  exact hstops

theorem writes_digit {digit : Char} (hdigit : digit.isDigit = true) :
    Writes .primary [digit] [⟨.integer (String.ofList [digit]), {}⟩]
      (.integer {} (String.ofList [digit])) := by
  have hlexeme : Lexeme (.integer (String.ofList [digit])) [digit] :=
    .integer ⟨List.cons_ne_nil _ _, List.forall_mem_singleton.mpr hdigit⟩
  exact {
    derives := .integer {} _
    apart := stops_append_of_startsExpr hlexeme rfl
    readAs := fun hfollows hrest => hrest.token hlexeme hfollows }

section Parts

variable {text : List Char} {tokens : List Token} {expr : Expr}

theorem Writes.toExpression {cls : ExprClass} (hwrites : Writes cls text tokens expr) :
    Writes .expression text tokens expr :=
  { hwrites with derives := hwrites.derives.toExpression }

theorem Writes.paren (hwrites : Writes .expression text tokens expr) :
    Writes .primary ('(' :: (text ++ [')']))
      (⟨.symbol .openParen, {}⟩ :: (tokens ++ [⟨.symbol .closeParen, {}⟩]))
      (.paren (Span.cover {} {}) expr) where
  derives := .paren {} {} hwrites.derives
  apart mark rest := stops_append_of_startsExpr (Lexeme.symbol .openParen) rfl mark _
  readAs {rest kinds} hfollows hrest := by
    have hclosed := hrest.token (.symbol .closeParen) fun _ _ => rfl
    have hinner := hwrites.readAs (stops_chars .closeParen rest) hclosed
    have hopened := hinner.token (.symbol .openParen) fun _ _ => rfl
    simpa [Symbol.chars] using hopened

theorem Writes.unary (op : UnaryOp) (hwrites : Writes .prefixed text tokens expr) :
    Writes .prefixed (op.symbol.chars ++ text) (⟨.symbol op.symbol, {}⟩ :: tokens)
      (.unary (Span.cover {} expr.span) op expr) where
  derives := .unary {} op hwrites.derives
  apart mark rest := by
    rw [List.append_assoc]
    exact stops_append_of_startsExpr (.symbol op.symbol) (by cases op <;> rfl) mark _
  readAs {rest kinds} hfollows hrest := by
    rw [List.append_assoc]
    exact (hwrites.readAs hfollows hrest).token (.symbol op.symbol) (hwrites.apart _ rest)

theorem Writes.binary (op : BinaryOp) (before after : Nat) {right : List Char}
    {rightTokens : List Token} {rightExpr : Expr}
    (hleft : Writes (.level op.precedence) text tokens expr)
    (hright : Writes (operands op.precedence) right rightTokens rightExpr) :
    Writes (.level op.precedence)
      (text ++ (List.replicate before ' ' ++ (op.symbol.chars ++
        (List.replicate after ' ' ++ right))))
      (tokens ++ ⟨.symbol op.symbol, {}⟩ :: rightTokens)
      (.binary (expr.span.cover rightExpr.span) op expr rightExpr) where
  derives := .binary {} op hleft.derives hright.derives
  apart mark rest := by
    rw [List.append_assoc]
    exact hleft.apart mark _
  readAs {rest kinds} hfollows hrest := by
    have hspace : op.symbol.goesOn ' ' = false := by cases op <;> rfl
    have hvalue := (hright.readAs hfollows hrest).spaces after
    have hmarked := hvalue.token (.symbol op.symbol) ((hright.apart _ rest).spaces hspace after)
    have hjoined := hleft.readAs ((stops_chars op.symbol _).spaces rfl before)
      (hmarked.spaces before)
    simpa using hjoined

theorem Writes.call {name : String} {word : List Char}
    (hname : Lexeme (.identifier name) word) (hwrites : Writes .expression text tokens expr) :
    Writes .primary (word ++ '(' :: (text ++ [')']))
      (⟨.identifier name, {}⟩ :: ⟨.symbol .openParen, {}⟩ ::
        (tokens ++ [⟨.symbol .closeParen, {}⟩]))
      (.call (Span.cover {} {}) name [expr]) where
  derives := .call {} {} {} name (.last hwrites.derives)
  apart mark rest := by
    rw [List.append_assoc]
    exact stops_append_of_startsExpr hname rfl mark _
  readAs {rest kinds} hfollows hrest := by
    have hopened := hwrites.paren.readAs hfollows hrest
    have hcalled := hopened.token hname (stops_chars .openParen _)
    simpa using hcalled

theorem Writes.assign {name : String} {word : List Char}
    (hname : Lexeme (.identifier name) word) (hwrites : Writes .expression text tokens expr) :
    Writes .expression (word ++ '=' :: text)
      (⟨.identifier name, {}⟩ :: ⟨.symbol .assign, {}⟩ :: tokens)
      (.assign (Span.cover {} expr.span) name expr) where
  derives := .assign {} {} name hwrites.derives
  apart mark rest := by
    rw [List.append_assoc]
    exact stops_append_of_startsExpr hname rfl mark _
  readAs {rest kinds} hfollows hrest := by
    have hvalue := hwrites.readAs hfollows hrest
    have hassigned := hvalue.token (.symbol .assign) (hwrites.apart .assign rest)
    have hnamed := hassigned.token hname (stops_chars .assign _)
    simpa [Symbol.chars] using hnamed

end Parts

/-! ## Repetition -/

/-- Some text over and over. -/
def copies (count : Nat) (text : List Char) : List Char :=
  (List.replicate count text).flatten

theorem copies_succ (count : Nat) (text : List Char) :
    copies (count + 1) text = text ++ copies count text := by
  rw [copies, List.replicate_succ, List.flatten_cons, copies]

theorem copies_succ_right (count : Nat) (text : List Char) :
    copies (count + 1) text = copies count text ++ text := by
  simp [copies, List.replicate_succ']

@[simp]
theorem copies_nil (count : Nat) : copies count [] = [] := by
  simp [copies]

/-- The text is that of an expression that costs so much. -/
def Costs (cls : ExprClass) (text : List Char) (cost : Nat) : Prop :=
  ∃ tokens expr, Writes cls text tokens expr ∧ expr.nesting = cost

/-- What costs the same each time it is put around an expression. -/
theorem costs_nested {cls : ExprClass} {front back : List Char} {price : Nat}
    (haround : ∀ {text cost}, Costs cls text cost →
      Costs cls (front ++ (text ++ back)) (price + cost))
    {text : List Char} (htext : Costs cls text 0) (count : Nat) :
    Costs cls (copies count front ++ (text ++ copies count back)) (count * price) := by
  induction count with
  | zero => simpa [copies] using htext
  | succ count ih =>
      have hnext := haround ih
      rw [copies_succ, copies_succ_right, Nat.succ_mul, Nat.add_comm]
      simpa using hnext

theorem costs_digit {digit : Char} (hdigit : digit.isDigit = true) :
    Costs .prefixed [digit] 0 := by
  have hwrites := writes_digit hdigit
  exact ⟨_, _, { hwrites with derives := .ofPrimary hwrites.derives }, rfl⟩

section Forms

variable {text : List Char} {cost : Nat}

theorem Costs.toExpression {cls : ExprClass} (htext : Costs cls text cost) :
    Costs .expression text cost := by
  obtain ⟨tokens, expr, hwrites, hcost⟩ := htext
  exact ⟨tokens, expr, hwrites.toExpression, hcost⟩

theorem Costs.paren (htext : Costs .expression text cost) :
    Costs .expression (['('] ++ (text ++ [')'])) (Parser.constructCost + cost) := by
  obtain ⟨tokens, expr, hwrites, rfl⟩ := htext
  exact ⟨_, _, hwrites.paren.toExpression, rfl⟩

theorem Costs.unary (op : UnaryOp) (htext : Costs .prefixed text cost) :
    Costs .prefixed (op.symbol.chars ++ (text ++ [])) (Parser.operatorCost + cost) := by
  obtain ⟨tokens, expr, hwrites, rfl⟩ := htext
  rw [List.append_nil]
  exact ⟨_, _, hwrites.unary op, rfl⟩

theorem Costs.call {name : String} {word : List Char}
    (hname : Lexeme (.identifier name) word) (htext : Costs .expression text cost) :
    Costs .expression (word ++ ['('] ++ (text ++ [')'])) (Parser.constructCost + cost) := by
  obtain ⟨tokens, expr, hwrites, rfl⟩ := htext
  rw [List.append_assoc]
  refine ⟨_, _, (hwrites.call hname).toExpression, ?_⟩
  rw [Expr.nesting, Expr.nestingOfEach, Expr.nestingOfEach, Nat.max_zero]

theorem Costs.assign {name : String} {word : List Char}
    (hname : Lexeme (.identifier name) word) (htext : Costs .expression text cost) :
    Costs .expression (word ++ ['='] ++ (text ++ [])) (Parser.constructCost + cost) := by
  obtain ⟨tokens, expr, hwrites, rfl⟩ := htext
  rw [List.append_assoc, List.append_nil]
  exact ⟨_, _, hwrites.assign hname, rfl⟩

end Forms

/-- An operator and a digit, with blanks before each of them. -/
def operation (op : BinaryOp) (before after : Nat) : List Char :=
  List.replicate before ' ' ++ (op.symbol.chars ++ (List.replicate after ' ' ++ ['1']))

/-- The last operand of a chain costs most, since it comes behind all operators. -/
theorem exists_chain_writes (op : BinaryOp) (before after count : Nat) :
    ∃ tokens expr, Writes (.level op.precedence)
        (['1'] ++ copies count (operation op before after)) tokens expr ∧
      expr.nesting = count * Parser.operatorCost ∧ expr.chainLength op.precedence = count := by
  have hdigit : Writes .primary ['1'] _ _ := writes_digit rfl
  have hoperand := { hdigit with derives := hdigit.derives.toOperand op.precedence }
  induction count with
  | zero => exact ⟨_, _, { hdigit with derives := .ofOperand _ hoperand.derives }, rfl, rfl⟩
  | succ count ih =>
      obtain ⟨tokens, expr, hwrites, hcost, hlength⟩ := ih
      have hnext := hwrites.binary op before after hoperand
      rw [copies_succ_right, ← List.append_assoc]
      refine ⟨_, _, hnext, ?_, ?_⟩
      · have hlast : (Expr.integer {} (String.ofList ['1'])).nesting = 0 := rfl
        rw [Expr.nesting, hcost, hlength, hlast, Parser.operatorCost]
        omega
      · rw [Expr.chainLength, if_pos rfl, hlength]

theorem costs_chain (op : BinaryOp) (before after count : Nat) :
    Costs .expression (['1'] ++ copies count (operation op before after))
      (count * Parser.operatorCost) := by
  obtain ⟨tokens, expr, hwrites, hcost, _⟩ := exists_chain_writes op before after count
  exact ⟨tokens, expr, hwrites.toExpression, hcost⟩

end Grammar

/-! ## What becomes of a source -/

namespace Parser

open Grammar Lexer

/-- What may stand before the expression of an item, as text and as kinds of tokens. -/
structure Opens (front : List Char) (lead : List TokenKind) : Prop where
  inner : ∀ kind ∈ lead, isInner kind = true
  leads : ∀ {found : List Token}, found.map Token.kind = lead → ∃ build, Leads found build
  readAs : ∀ {rest : List Char} {kinds : List TokenKind},
    Stops Symbol.assign.goesOn rest → ReadAs rest kinds → ReadAs (front ++ rest) (lead ++ kinds)

theorem opens_nothing : Opens [] [] where
  inner := List.forall_mem_nil _
  leads hfound := by
    rw [List.map_eq_nil_iff.mp hfound]
    exact ⟨_, leads_evaluation⟩
  readAs _ hrest := hrest

theorem opens_declaration :
    Opens "int x = ".toList [.type .int, .identifier "x", .symbol .assign] where
  inner := by decide
  leads {found} hfound := by
    obtain ⟨⟨_, start⟩, _, rfl, rfl, hothers⟩ := List.map_eq_cons_iff.mp hfound
    obtain ⟨⟨_, middle⟩, _, rfl, rfl, hlast⟩ := List.map_eq_cons_iff.mp hothers
    obtain ⟨⟨_, mark⟩, rfl, rfl⟩ := List.map_eq_singleton_iff.mp hlast
    exact ⟨_, leads_global .int "x" start middle mark⟩
  readAs {rest kinds} hfollows hrest := by
    have htype : Lexeme (.type .int) ['i', 'n', 't'] := lexeme_of_ofWord rfl rfl rfl
    have hname : Lexeme (.identifier "x") ['x'] := lexeme_of_ofWord rfl rfl rfl
    have hassigned := (hrest.spaces 1).token (.symbol .assign) (hfollows.spaces rfl 1)
    have hnamed := (hassigned.spaces 1).token hname ((stops_chars .assign _).spaces rfl 1)
    have htyped := (hnamed.spaces 1).token htype (by rintro c ⟨⟩; rfl)
    exact htyped

/-- Whether an item is read is a matter of what its expression costs. -/
theorem Opens.acceptedIff {front text : List Char} {lead : List TokenKind}
    (hopens : Opens front lead) {cost : Nat} (htext : Costs .expression text cost) :
    AcceptedIff (parse (front ++ (text ++ [';']))) (constructCost + cost ≤ nestingBudget) := by
  obtain ⟨tokens, expr, hwrites, rfl⟩ := htext
  have hend : ReadAs [';'] [.symbol .semicolon] :=
    readAs_nil.token (.symbol .semicolon) fun _ _ => rfl
  have hsource : ReadAs (front ++ (text ++ [';'])) _ :=
    hopens.readAs (hwrites.apart _ _) (hwrites.readAs (stops_chars .semicolon []) hend)
  obtain ⟨hkinds, hlexical⟩ := hsource.lex
  obtain ⟨found, placed, stop, copy, htokens, hfound, hcopy, hsame⟩ :=
    hwrites.derives.exists_placed hkinds
  obtain ⟨build, hleads⟩ := hopens.leads hfound
  have hinner : ∀ token ∈ found, isInner token.kind = true := fun token hmem =>
    hopens.inner _ (hfound ▸ List.mem_map_of_mem hmem)
  have hcost : copy.nesting = expr.nesting := by
    rw [← Expr.nesting_bare copy, hsame, Expr.nesting_bare]
  rw [← hcost]
  exact acceptedIff_of_leads hleads hcopy stop hinner hlexical htokens

/-- The limits on nesting are exact: for parentheses, for calls inside calls and for
assignments in a row, and for operators before a digit or between digits, whatever blanks
stand there. -/
theorem nesting_limits_exact (count : Nat) :
    AcceptedIff (parse ("int x = ".toList ++
      (copies count ['('] ++ (['1'] ++ copies count [')']) ++ [';']))) (count ≤ 63) ∧
    (∀ op : UnaryOp, AcceptedIff (parse ("int x = ".toList ++
      (copies count op.symbol.chars ++ ['1'] ++ [';']))) (count ≤ 252)) ∧
    (∀ (op : BinaryOp) (before after : Nat), AcceptedIff (parse ("int x = ".toList ++
      (['1'] ++ copies count (operation op before after) ++ [';']))) (count ≤ 252)) ∧
    AcceptedIff (parse (copies count ['f', '('] ++ (['0'] ++ copies count [')']) ++ [';']))
      (count ≤ 63) ∧
    AcceptedIff (parse (copies count ['a', '='] ++ ['1'] ++ [';'])) (count ≤ 63) := by
  have hconstructs : constructCost + count * constructCost ≤ nestingBudget ↔ count ≤ 63 := by
    rw [constructCost, nestingBudget]
    omega
  have hoperators : constructCost + count * operatorCost ≤ nestingBudget ↔ count ≤ 252 := by
    rw [constructCost, operatorCost, nestingBudget]
    omega
  have hzero : Costs .prefixed ['0'] 0 := costs_digit rfl
  have hone : Costs .prefixed ['1'] 0 := costs_digit rfl
  rw [← hconstructs, ← hoperators]
  refine ⟨?_, fun op => ?_, fun op before after => ?_, ?_, ?_⟩
  · exact opens_declaration.acceptedIff (costs_nested .paren hone.toExpression count)
  · have hunary := costs_nested (Costs.unary op) hone count
    rw [copies_nil, List.append_nil] at hunary
    exact opens_declaration.acceptedIff hunary.toExpression
  · exact opens_declaration.acceptedIff (costs_chain op before after count)
  · have hname : Lexeme (.identifier "f") ['f'] := lexeme_of_ofWord rfl rfl rfl
    exact opens_nothing.acceptedIff (costs_nested (.call hname) hzero.toExpression count)
  · have hname : Lexeme (.identifier "a") ['a'] := lexeme_of_ofWord rfl rfl rfl
    have hassigned := costs_nested (Costs.assign hname) hone.toExpression count
    rw [copies_nil, List.append_nil] at hassigned
    exact opens_nothing.acceptedIff hassigned

end Parser

end DeclCheck
