import DeclCheck.Analysis.CalledNames
import DeclCheck.Proofs.Grammar
import DeclCheck.Proofs.Token.NamePairs

/-!
# Names before parentheses in phrases

The names before parentheses among the tokens of a phrase are, one for one and in
order, the functions that its tree defines and the calls that its tree holds.  A
call node spans from its name to the parenthesis that counting finds.
-/

namespace DeclCheck

/-- What a node says if it is a call. -/
def Expr.mention? (node : Expr) : Option Mention :=
  node.callee?.map fun name => .call name (some node.span)

/-- The calls inside an expression, a call before those in its arguments. -/
def Expr.mentions (expr : Expr) : List Mention :=
  expr.subexpressions.filterMap Expr.mention?

/-- The function that an item defines, then the calls that it holds. -/
def Item.mentions (item : Item) : List Mention :=
  item.function?.toList.map (fun function => .header function.name) ++
    item.sites.flatMap Expr.mentions

theorem subexpressionsOfEach_eq_flatMap (exprs : List Expr) :
    Expr.subexpressionsOfEach exprs = exprs.flatMap Expr.subexpressions := by
  induction exprs with
  | nil => rfl
  | cons first rest ih => rw [Expr.subexpressionsOfEach, ih, List.flatMap_cons]

theorem mentions_callExpr (span : Span) (name : String) (args : List Expr) :
    (Expr.call span name args).mentions =
      .call name (some span) :: args.flatMap Expr.mentions := by
  rw [Expr.mentions, Expr.subexpressions, subexpressionsOfEach_eq_flatMap,
    List.filterMap_cons, List.filterMap_flatMap]
  rfl

theorem mentions_binary (span : Span) (op : BinaryOp) (left right : Expr) :
    (Expr.binary span op left right).mentions = left.mentions ++ right.mentions := by
  rw [Expr.mentions, Expr.subexpressions, List.filterMap_cons, List.filterMap_append]
  rfl

namespace Grammar

/-! ## Parentheses -/

/-- No parenthesis opened before the tokens is closed by them, and none of theirs
is left open. -/
def Balanced (tokens : List Token) : Prop :=
  ∀ depth rest, closing? depth (tokens ++ rest) = closing? depth rest

theorem balanced_nil : Balanced [] := fun _ _ => rfl

theorem balanced_other {kind : TokenKind} (hopen : kind ≠ .symbol .openParen)
    (hclose : kind ≠ .symbol .closeParen) (span : Span) :
    Balanced [⟨kind, span⟩] := fun depth rest =>
  closing?_other hopen hclose depth span rest

theorem Balanced.append {first second : List Token} (hfirst : Balanced first)
    (hsecond : Balanced second) : Balanced (first ++ second) := by
  intro depth rest
  rw [List.append_assoc, hfirst, hsecond]

theorem Balanced.cons_other {kind : TokenKind} (hopen : kind ≠ .symbol .openParen)
    (hclose : kind ≠ .symbol .closeParen) (span : Span) {tokens : List Token}
    (htokens : Balanced tokens) : Balanced (⟨kind, span⟩ :: tokens) :=
  (balanced_other hopen hclose span).append htokens

theorem Balanced.parens {tokens : List Token} (htokens : Balanced tokens)
    (opening closing : Span) :
    Balanced (⟨.symbol .openParen, opening⟩ ::
      (tokens ++ [⟨.symbol .closeParen, closing⟩])) := by
  intro depth rest
  rw [List.cons_append, List.append_assoc, closing?_open, htokens]
  exact closing?_close_succ depth closing rest

mutual

theorem DerivesExpr.balanced :
    ∀ {cls : ExprClass} {tokens : List Token} {expr : Expr},
      DerivesExpr cls tokens expr → Balanced tokens
  | _, _, _, .integer span _ => balanced_other (by simp) (by simp) span
  | _, _, _, .float span _ => balanced_other (by simp) (by simp) span
  | _, _, _, .string span _ => balanced_other (by simp) (by simp) span
  | _, _, _, .boolean span _ => balanced_other (by simp) (by simp) span
  | _, _, _, .identifier span _ => balanced_other (by simp) (by simp) span
  | _, _, _, .emptyCall start opening stop _ =>
      .cons_other (by simp) (by simp) start
        (balanced_nil.parens opening stop)
  | _, _, _, .call start opening stop _ hargs =>
      .cons_other (by simp) (by simp) start (hargs.balanced.parens opening stop)
  | _, _, _, .paren start stop hinner => hinner.balanced.parens start stop
  | _, _, _, .ofPrimary hprimary => hprimary.balanced
  | _, _, _, .unary start op hoperand =>
      .cons_other (by cases op <;> simp [UnaryOp.symbol])
        (by cases op <;> simp [UnaryOp.symbol]) start hoperand.balanced
  | _, _, _, .ofOperand _ hoperand => hoperand.balanced
  | _, _, _, .binary mark op hleft hright =>
      hleft.balanced.append (.cons_other (by cases op <;> simp [BinaryOp.symbol])
        (by cases op <;> simp [BinaryOp.symbol]) mark hright.balanced)
  | _, _, _, .ofChain hchain => hchain.balanced
  | _, _, _, .assign start mark _ hvalue =>
      .cons_other (by simp) (by simp) start
        (.cons_other (by simp) (by simp) mark hvalue.balanced)

theorem DerivesArgs.balanced :
    ∀ {tokens : List Token} {args : List Expr}, DerivesArgs tokens args →
      Balanced tokens
  | _, _, .last hexpr => hexpr.balanced
  | _, _, .more comma hexpr hrest =>
      hexpr.balanced.append (.cons_other (by simp) (by simp) comma hrest.balanced)

end

/-! ## Expressions -/

/-- The tokens say what is listed, provided that no parenthesis follows, which
would go on with a name at their end. -/
def Spells (tokens : List Token) (said : List Mention) : Prop :=
  ∀ rest, opensParen rest = false →
    mentions false (tokens ++ rest) = said ++ mentions false rest

theorem spells_plain {kind : TokenKind} (hplain : isPlain kind = true) (span : Span) :
    Spells [⟨kind, span⟩] [] := fun rest _ => mentions_plain hplain false span rest

/-- A token that is neither a name nor a type says nothing, and ends what comes
before it. -/
theorem Spells.append_plain {kind : TokenKind} (hplain : isPlain kind = true)
    (hopen : kind ≠ .symbol .openParen) (span : Span) {first : List Token}
    {firstSaid : List Mention} (hfirst : Spells first firstSaid) (rest : List Token) :
    mentions false (first ++ ⟨kind, span⟩ :: rest) =
      firstSaid ++ mentions false rest := by
  have hcloses : opensParen (⟨kind, span⟩ :: rest) = false := decide_eq_false hopen
  rw [hfirst _ hcloses, mentions_plain hplain]

mutual

theorem DerivesExpr.spells :
    ∀ {cls : ExprClass} {tokens : List Token} {expr : Expr},
      DerivesExpr cls tokens expr → Spells tokens expr.mentions
  | _, _, _, .integer span _ => spells_plain rfl span
  | _, _, _, .float span _ => spells_plain rfl span
  | _, _, _, .string span _ => spells_plain rfl span
  | _, _, _, .boolean span _ => spells_plain rfl span
  | _, _, _, .identifier span name => fun _ hopens =>
      mentions_identifier hopens false name span
  | _, _, _, .emptyCall start opening stop name => fun rest _ => by
      rw [mentions_callExpr]
      rfl
  | _, _, _, .call start opening stop name hargs => fun rest _ => by
      rw [mentions_callExpr, List.cons_append, List.cons_append, List.append_assoc,
        List.singleton_append, mentions_call, hargs.balanced,
        hargs.spells.append_plain rfl (by simp)]
      rfl
  | _, _, _, .paren start stop hinner => fun rest _ => by
      rw [List.cons_append, List.append_assoc, mentions_plain rfl]
      exact hinner.spells.append_plain rfl (by simp) stop rest
  | _, _, _, .ofPrimary hprimary => hprimary.spells
  | _, _, _, .unary start op hoperand => fun rest hopens => by
      rw [List.cons_append, mentions_plain rfl]
      exact hoperand.spells rest hopens
  | _, _, _, .ofOperand _ hoperand => hoperand.spells
  | _, _, _, .binary mark op hleft hright => fun rest hopens => by
      rw [List.append_assoc, List.cons_append, mentions_binary, List.append_assoc,
        hleft.spells.append_plain rfl (by cases op <;> simp [BinaryOp.symbol]),
        hright.spells rest hopens]
  | _, _, _, .ofChain hchain => hchain.spells
  | _, _, _, .assign start mark name hvalue => fun rest hopens => by
      rw [List.cons_append, List.cons_append, mentions_identifier rfl,
        mentions_plain rfl]
      exact hvalue.spells rest hopens

theorem DerivesArgs.spells :
    ∀ {tokens : List Token} {args : List Expr}, DerivesArgs tokens args →
      Spells tokens (args.flatMap Expr.mentions)
  | _, _, .last hexpr => by
      rw [List.flatMap_cons, List.flatMap_nil, List.append_nil]
      exact hexpr.spells
  | _, _, .more comma hexpr hrest => fun rest hopens => by
      rw [List.append_assoc, List.cons_append, List.flatMap_cons, List.append_assoc,
        hexpr.spells.append_plain rfl (by simp), hrest.spells rest hopens]

end

/-! ## Statements -/

/-- The tokens say what is listed, whatever follows. -/
def SpellsAll (tokens : List Token) (said : List Mention) : Prop :=
  ∀ rest, mentions false (tokens ++ rest) = said ++ mentions false rest

theorem Spells.closed {kind : TokenKind} (hplain : isPlain kind = true)
    (hopen : kind ≠ .symbol .openParen) (span : Span) {tokens : List Token}
    {said : List Mention} (htokens : Spells tokens said) :
    SpellsAll (tokens ++ [⟨kind, span⟩]) said := by
  intro rest
  rw [List.append_assoc]
  exact htokens.append_plain hplain hopen span rest

theorem SpellsAll.append {first second : List Token} {firstSaid secondSaid : List Mention}
    (hfirst : SpellsAll first firstSaid) (hsecond : SpellsAll second secondSaid) :
    SpellsAll (first ++ second) (firstSaid ++ secondSaid) := by
  intro rest
  rw [List.append_assoc, hfirst, hsecond, List.append_assoc]

theorem SpellsAll.cons_plain {kind : TokenKind} (hplain : isPlain kind = true)
    (span : Span) {tokens : List Token} {said : List Mention}
    (htokens : SpellsAll tokens said) : SpellsAll (⟨kind, span⟩ :: tokens) said := by
  intro rest
  rw [List.cons_append, mentions_plain hplain]
  exact htokens rest

theorem DerivesInit.opensParen_eq_false {stop : Span} {tokens : List Token}
    {init : Option Expr} (hinit : DerivesInit stop tokens init) (rest : List Token) :
    opensParen (tokens ++ rest) = false := by
  cases hinit <;> rfl

theorem DerivesInit.spells {stop : Span} {tokens : List Token} {init : Option Expr}
    (hinit : DerivesInit stop tokens init) :
    SpellsAll tokens (init.toList.flatMap Expr.mentions) := by
  cases hinit with
  | absent => exact fun rest => mentions_plain rfl false stop rest
  | present mark hvalue =>
      rw [Option.toList_some, List.flatMap_singleton]
      exact (hvalue.spells.closed rfl (by simp) stop).cons_plain rfl mark

/-- A variable is no function, although its name follows a type. -/
theorem DerivesVariable.spells {tokens : List Token} {decl : VariableDecl}
    (hdecl : DerivesVariable tokens decl) :
    SpellsAll tokens (decl.init.toList.flatMap Expr.mentions) := by
  obtain ⟨start, middle, stop, type, name, hinit⟩ := hdecl
  intro rest
  rw [List.cons_append, List.cons_append, mentions_type,
    mentions_identifier (hinit.opensParen_eq_false rest)]
  exact hinit.spells rest

theorem DerivesEvaluation.spells {stop : Span} {tokens : List Token} {expr : Expr}
    (hexpr : DerivesEvaluation stop tokens expr) : SpellsAll tokens expr.mentions := by
  obtain ⟨hexpr⟩ := hexpr
  exact hexpr.spells.closed rfl (by simp) stop

theorem DerivesCondition.spells {tokens : List Token} {expr : Expr}
    (hexpr : DerivesCondition tokens expr) : SpellsAll tokens expr.mentions := by
  obtain ⟨opening, closing, hexpr⟩ := hexpr
  exact (hexpr.spells.closed rfl (by simp) closing).cons_plain rfl opening

mutual

theorem DerivesStmt.spells :
    ∀ {tokens : List Token} {stmt : Stmt}, DerivesStmt tokens stmt →
      SpellsAll tokens (stmt.sites.flatMap Expr.mentions)
  | _, _, .declare hdecl => hdecl.spells
  | _, _, .evaluate stop hexpr => by
      rw [Stmt.sites, List.flatMap_singleton]
      exact hexpr.spells
  | _, _, .ifThen start hcondition hbody =>
      (hcondition.spells.append hbody.spells).cons_plain rfl start
  | _, _, .ifElse start middle hcondition htrue hfalse => by
      rw [Stmt.sites, List.flatMap_cons, List.flatMap_append]
      have helse : isPlain (.keyword .elseWord) = true := rfl
      have hblocks := htrue.spells.append (hfalse.spells.cons_plain helse middle)
      exact (hcondition.spells.append hblocks).cons_plain rfl start
  | _, _, .loop start hcondition hbody =>
      (hcondition.spells.append hbody.spells).cons_plain rfl start
  | _, _, .leave start stop => fun rest => rfl
  | _, _, .leaveWith start stop hvalue => by
      rw [Stmt.sites, Option.toList_some, List.flatMap_singleton]
      exact hvalue.spells.cons_plain rfl start
  | _, _, .nest hblock => hblock.spells

theorem DerivesBlock.spells :
    ∀ {tokens : List Token} {block : Block}, DerivesBlock tokens block →
      SpellsAll tokens (block.sites.flatMap Expr.mentions)
  | _, _, .intro start stop hstmts => by
      have hclosed : SpellsAll [⟨.symbol .closeBrace, stop⟩] [] :=
        fun rest => mentions_plain rfl false stop rest
      rw [Block.sites, ← List.append_nil (List.flatMap _ _)]
      exact (hstmts.spells.append hclosed).cons_plain rfl start

theorem DerivesStmts.spells :
    ∀ {tokens : List Token} {stmts : List Stmt}, DerivesStmts tokens stmts →
      SpellsAll tokens ((Stmt.sitesOfEach stmts).flatMap Expr.mentions)
  | _, _, .nil => fun rest => rfl
  | _, _, .cons hstmt hrest => by
      rw [Stmt.sitesOfEach, List.flatMap_append]
      exact hstmt.spells.append hrest.spells

end

/-! ## Items -/

theorem DerivesParameters.mentions_append {tokens : List Token}
    {params : List Parameter} (hparams : DerivesParameters tokens params)
    (closing : Span) (rest : List Token) :
    mentions false (tokens ++ ⟨.symbol .closeParen, closing⟩ :: rest) =
      mentions false rest := by
  induction hparams with
  | last hparam =>
      obtain ⟨start, stop, type, name⟩ := hparam
      rfl
  | more comma hparam _ ih =>
      obtain ⟨start, stop, type, name⟩ := hparam
      rw [List.append_assoc]
      exact ih

theorem DerivesParameterList.mentions_append {tokens : List Token}
    {params : Option (List Parameter)} (hparams : DerivesParameterList tokens params)
    (closing : Span) (rest : List Token) :
    mentions false (tokens ++ ⟨.symbol .closeParen, closing⟩ :: rest) =
      mentions false rest := by
  cases hparams with
  | absent => rfl
  | present hparams => exact hparams.mentions_append closing rest

theorem DerivesItem.spells {tokens : List Token} {item : Item}
    (hitem : DerivesItem tokens item) : SpellsAll tokens item.mentions := by
  cases hitem with
  | global hdecl => exact hdecl.spells
  | function start middle opening closing type name hparams hbody =>
      intro rest
      simp only [List.cons_append, List.append_assoc, mentions_type, mentions_header,
        hparams.mentions_append, hbody.spells rest]
      cases hbody
      rfl
  | expression stop hexpr =>
      rw [Item.mentions, Item.sites, List.flatMap_singleton]
      exact hexpr.spells

/-- The names before parentheses are those of the functions and of the calls. -/
theorem DerivesItems.spells {tokens : List Token} {items : List Item}
    (hitems : DerivesItems tokens items) :
    SpellsAll tokens (items.flatMap Item.mentions) := by
  induction hitems with
  | nil => exact fun rest => rfl
  | cons hitem _ ih => exact hitem.spells.append ih

end Grammar

end DeclCheck
