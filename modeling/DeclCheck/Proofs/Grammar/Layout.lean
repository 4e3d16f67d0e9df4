import DeclCheck.Proofs.Bare
import DeclCheck.Proofs.Grammar

/-!
# The grammar does not depend on layout

A phrase stays a phrase when all spans are taken away, with the tree that has
none either; and a phrase without spans is one for every layout of its tokens.
-/

namespace DeclCheck.Grammar

theorem map_bare_eq_cons {tokens rest : List Token} {kind : TokenKind}
    {span : Span} (heq : tokens.map Token.bare = ⟨kind, span⟩ :: rest) :
    ∃ place others, tokens = ⟨kind, place⟩ :: others ∧ span = {} ∧
      others.map Token.bare = rest := by
  obtain ⟨token, others, rfl, htoken, hrest⟩ := List.map_eq_cons_iff.mp heq
  cases htoken
  exact ⟨token.span, others, rfl, rfl, hrest⟩

theorem map_bare_eq_singleton {tokens : List Token} {kind : TokenKind}
    {span : Span} (heq : tokens.map Token.bare = [⟨kind, span⟩]) :
    ∃ place, tokens = [⟨kind, place⟩] ∧ span = {} := by
  obtain ⟨place, others, rfl, hspan, hrest⟩ := map_bare_eq_cons heq
  rw [List.map_eq_nil_iff.mp hrest]
  exact ⟨place, rfl, hspan⟩

/-! ## Taking spans away -/

mutual

theorem DerivesExpr.bare :
    ∀ {cls : ExprClass} {tokens : List Token} {expr : Expr},
      DerivesExpr cls tokens expr →
      DerivesExpr cls (tokens.map Token.bare) expr.bare
  | _, _, _, .integer _ text => .integer {} text
  | _, _, _, .float _ text => .float {} text
  | _, _, _, .string _ text => .string {} text
  | _, _, _, .boolean _ value => .boolean {} value
  | _, _, _, .identifier _ name => .identifier {} name
  | _, _, _, .emptyCall _ _ _ name => .emptyCall {} {} {} name
  | _, _, _, .call _ _ _ name hargs => by
      simpa [Expr.bare, Token.bare] using DerivesExpr.call {} {} {} name hargs.bare
  | _, _, _, .paren _ _ hinner => by
      simpa [Expr.bare, Token.bare] using DerivesExpr.paren {} {} hinner.bare
  | _, _, _, .ofPrimary hprimary => .ofPrimary hprimary.bare
  | _, _, _, .unary _ op hoperand => by
      simpa [Expr.bare, Token.bare] using DerivesExpr.unary {} op hoperand.bare
  | _, _, _, .ofOperand level hoperand => .ofOperand level hoperand.bare
  | _, _, _, .binary _ op hleft hright => by
      simpa [Expr.bare, Token.bare] using
        DerivesExpr.binary {} op hleft.bare hright.bare
  | _, _, _, .ofChain hchain => .ofChain hchain.bare
  | _, _, _, .assign _ _ name hvalue => by
      simpa [Expr.bare, Token.bare] using DerivesExpr.assign {} {} name hvalue.bare

theorem DerivesArgs.bare :
    ∀ {tokens : List Token} {args : List Expr}, DerivesArgs tokens args →
      DerivesArgs (tokens.map Token.bare) (Expr.bareEach args)
  | _, _, .last hexpr => .last hexpr.bare
  | _, _, .more _ hexpr hrest => by
      simpa [Expr.bareEach, Token.bare] using
        DerivesArgs.more {} hexpr.bare hrest.bare

end

theorem DerivesInit.bare {stop : Span} {tokens : List Token} {init : Option Expr}
    (hinit : DerivesInit stop tokens init) :
    DerivesInit {} (tokens.map Token.bare) (init.map Expr.bare) := by
  cases hinit with
  | absent => exact .absent
  | present mark hvalue =>
      have hpresent : DerivesInit {} _ _ := .present {} hvalue.bare
      simpa [Token.bare] using hpresent

theorem DerivesVariable.bare {tokens : List Token} {decl : VariableDecl}
    (hdecl : DerivesVariable tokens decl) :
    DerivesVariable (tokens.map Token.bare) decl.bare := by
  cases hdecl with
  | intro start middle stop type name hinit =>
      exact .intro {} {} {} type name hinit.bare

theorem DerivesEvaluation.bare {stop : Span} {tokens : List Token} {expr : Expr}
    (hexpr : DerivesEvaluation stop tokens expr) :
    DerivesEvaluation {} (tokens.map Token.bare) expr.bare := by
  cases hexpr with
  | intro hexpr =>
      have hevaluation : DerivesEvaluation {} _ _ := .intro hexpr.bare
      simpa [Token.bare] using hevaluation

theorem DerivesCondition.bare {tokens : List Token} {expr : Expr}
    (hcondition : DerivesCondition tokens expr) :
    DerivesCondition (tokens.map Token.bare) expr.bare := by
  cases hcondition with
  | intro opening closing hexpr =>
      simpa [Token.bare] using DerivesCondition.intro {} {} hexpr.bare

mutual

theorem DerivesStmt.bare :
    ∀ {tokens : List Token} {stmt : Stmt}, DerivesStmt tokens stmt →
      DerivesStmt (tokens.map Token.bare) stmt.bare
  | _, _, .declare hdecl => by
      simpa [Stmt.bare] using DerivesStmt.declare hdecl.bare
  | _, _, .evaluate _ hexpr => by
      simpa [Stmt.bare] using DerivesStmt.evaluate {} hexpr.bare
  | _, _, .ifThen _ hcondition hbody => by
      simpa [Stmt.bare, Token.bare] using
        DerivesStmt.ifThen {} hcondition.bare hbody.bare
  | _, _, .ifElse _ _ hcondition htrue hfalse => by
      simpa [Stmt.bare, Token.bare] using
        DerivesStmt.ifElse {} {} hcondition.bare htrue.bare hfalse.bare
  | _, _, .loop _ hcondition hbody => by
      simpa [Stmt.bare, Token.bare] using
        DerivesStmt.loop {} hcondition.bare hbody.bare
  | _, _, .leave _ _ => by
      simpa [Stmt.bare, Token.bare] using DerivesStmt.leave {} {}
  | _, _, .leaveWith _ _ hvalue => by
      simpa [Stmt.bare, Token.bare] using DerivesStmt.leaveWith {} {} hvalue.bare
  | _, _, .nest hblock => by
      simpa [Stmt.bare] using DerivesStmt.nest hblock.bare

theorem DerivesBlock.bare :
    ∀ {tokens : List Token} {block : Block}, DerivesBlock tokens block →
      DerivesBlock (tokens.map Token.bare) block.bare
  | _, _, .intro _ _ hstmts => by
      simpa [Block.bare, Token.bare] using DerivesBlock.intro {} {} hstmts.bare

theorem DerivesStmts.bare :
    ∀ {tokens : List Token} {stmts : List Stmt}, DerivesStmts tokens stmts →
      DerivesStmts (tokens.map Token.bare) (Stmt.bareEach stmts)
  | _, _, .nil => .nil
  | _, _, .cons hstmt hrest => by
      simpa [Stmt.bareEach] using DerivesStmts.cons hstmt.bare hrest.bare

end

theorem DerivesParameters.bare {tokens : List Token} {params : List Parameter}
    (hparams : DerivesParameters tokens params) :
    DerivesParameters (tokens.map Token.bare) (params.map Parameter.bare) := by
  induction hparams with
  | last hparam => cases hparam with | intro => exact .last (.intro {} {} _ _)
  | more comma hparam hrest ih =>
      cases hparam with
      | intro start stop type name =>
          exact .more {} (.intro {} {} type name) ih

theorem DerivesParameterList.bare {tokens : List Token}
    {params : Option (List Parameter)}
    (hparams : DerivesParameterList tokens params) :
    DerivesParameterList (tokens.map Token.bare)
      (params.map (List.map Parameter.bare)) := by
  cases hparams with
  | absent => exact .absent
  | present hparams => exact .present hparams.bare

theorem DerivesItem.bare {tokens : List Token} {item : Item}
    (hitem : DerivesItem tokens item) :
    DerivesItem (tokens.map Token.bare) item.bare := by
  cases hitem with
  | global hdecl => exact .global hdecl.bare
  | function start middle opening closing type name hparams hbody =>
      simpa [Item.bare, FunctionDecl.bare, Token.bare] using
        DerivesItem.function {} {} {} {} type name hparams.bare hbody.bare
  | expression stop hexpr =>
      simpa [Item.bare] using DerivesItem.expression {} hexpr.bare

theorem DerivesItems.bare {tokens : List Token} {items : List Item}
    (hitems : DerivesItems tokens items) :
    DerivesItems (tokens.map Token.bare) (items.map Item.bare) := by
  induction hitems with
  | nil => exact .nil
  | cons hitem hrest ih => simpa using DerivesItems.cons hitem.bare ih

/-! ## Putting spans back -/

mutual

theorem DerivesExpr.placed :
    ∀ {cls : ExprClass} {blank : List Token} {tree : Expr},
      DerivesExpr cls blank tree →
      ∀ {tokens : List Token}, tokens.map Token.bare = blank →
        ∃ expr, DerivesExpr cls tokens expr ∧ expr.bare = tree
  | _, _, _, .integer _ text => fun heq => by
      obtain ⟨place, rfl, rfl⟩ := map_bare_eq_singleton heq
      exact ⟨_, .integer place text, rfl⟩
  | _, _, _, .float _ text => fun heq => by
      obtain ⟨place, rfl, rfl⟩ := map_bare_eq_singleton heq
      exact ⟨_, .float place text, rfl⟩
  | _, _, _, .string _ text => fun heq => by
      obtain ⟨place, rfl, rfl⟩ := map_bare_eq_singleton heq
      exact ⟨_, .string place text, rfl⟩
  | _, _, _, .boolean _ value => fun heq => by
      obtain ⟨place, rfl, rfl⟩ := map_bare_eq_singleton heq
      exact ⟨_, .boolean place value, rfl⟩
  | _, _, _, .identifier _ name => fun heq => by
      obtain ⟨place, rfl, rfl⟩ := map_bare_eq_singleton heq
      exact ⟨_, .identifier place name, rfl⟩
  | _, _, _, .emptyCall _ _ _ name => fun heq => by
      obtain ⟨start, _, rfl, rfl, hafterStart⟩ := map_bare_eq_cons heq
      obtain ⟨opening, _, rfl, rfl, hafterOpening⟩ := map_bare_eq_cons hafterStart
      obtain ⟨stop, rfl, rfl⟩ := map_bare_eq_singleton hafterOpening
      exact ⟨_, .emptyCall start opening stop name, rfl⟩
  | _, _, _, .call _ _ _ name hargs => fun heq => by
      obtain ⟨start, _, rfl, rfl, hafterStart⟩ := map_bare_eq_cons heq
      obtain ⟨opening, _, rfl, rfl, hafterOpening⟩ := map_bare_eq_cons hafterStart
      obtain ⟨inner, _, rfl, hinner, hclosing⟩ := List.map_eq_append_iff.mp hafterOpening
      obtain ⟨stop, rfl, rfl⟩ := map_bare_eq_singleton hclosing
      obtain ⟨args, hderives, rfl⟩ := hargs.placed hinner
      exact ⟨_, .call start opening stop name hderives, rfl⟩
  | _, _, _, .paren _ _ hinner => fun heq => by
      obtain ⟨start, _, rfl, rfl, hafterStart⟩ := map_bare_eq_cons heq
      obtain ⟨tokens, _, rfl, htokens, hclosing⟩ := List.map_eq_append_iff.mp hafterStart
      obtain ⟨stop, rfl, rfl⟩ := map_bare_eq_singleton hclosing
      obtain ⟨inner, hderives, rfl⟩ := hinner.placed htokens
      exact ⟨_, .paren start stop hderives, rfl⟩
  | _, _, _, .ofPrimary hprimary => fun heq => by
      obtain ⟨expr, hderives, htree⟩ := hprimary.placed heq
      exact ⟨expr, .ofPrimary hderives, htree⟩
  | _, _, _, .unary _ op hoperand => fun heq => by
      obtain ⟨start, _, rfl, rfl, hafterStart⟩ := map_bare_eq_cons heq
      obtain ⟨operand, hderives, rfl⟩ := hoperand.placed hafterStart
      exact ⟨_, .unary start op hderives, by simp [Expr.bare]⟩
  | _, _, _, .ofOperand level hoperand => fun heq => by
      obtain ⟨expr, hderives, htree⟩ := hoperand.placed heq
      exact ⟨expr, .ofOperand level hderives, htree⟩
  | _, _, _, .binary _ op hleft hright => fun heq => by
      obtain ⟨_, _, rfl, hleftTokens, hafterLeft⟩ := List.map_eq_append_iff.mp heq
      obtain ⟨mark, _, rfl, rfl, hafterMark⟩ := map_bare_eq_cons hafterLeft
      obtain ⟨left, hleftDerives, rfl⟩ := hleft.placed hleftTokens
      obtain ⟨right, hrightDerives, rfl⟩ := hright.placed hafterMark
      exact ⟨_, .binary mark op hleftDerives hrightDerives, by simp [Expr.bare]⟩
  | _, _, _, .ofChain hchain => fun heq => by
      obtain ⟨expr, hderives, htree⟩ := hchain.placed heq
      exact ⟨expr, .ofChain hderives, htree⟩
  | _, _, _, .assign _ _ name hvalue => fun heq => by
      obtain ⟨start, _, rfl, rfl, hafterStart⟩ := map_bare_eq_cons heq
      obtain ⟨mark, _, rfl, rfl, hafterMark⟩ := map_bare_eq_cons hafterStart
      obtain ⟨value, hderives, rfl⟩ := hvalue.placed hafterMark
      exact ⟨_, .assign start mark name hderives, by simp [Expr.bare]⟩

theorem DerivesArgs.placed :
    ∀ {blank : List Token} {trees : List Expr}, DerivesArgs blank trees →
      ∀ {tokens : List Token}, tokens.map Token.bare = blank →
        ∃ args, DerivesArgs tokens args ∧ Expr.bareEach args = trees
  | _, _, .last hexpr => fun heq => by
      obtain ⟨expr, hderives, rfl⟩ := hexpr.placed heq
      exact ⟨_, .last hderives, rfl⟩
  | _, _, .more _ hexpr hrest => fun heq => by
      obtain ⟨_, _, rfl, htokens, hafterExpr⟩ := List.map_eq_append_iff.mp heq
      obtain ⟨comma, _, rfl, rfl, hafterComma⟩ := map_bare_eq_cons hafterExpr
      obtain ⟨expr, hderives, rfl⟩ := hexpr.placed htokens
      obtain ⟨exprs, hrestDerives, rfl⟩ := hrest.placed hafterComma
      exact ⟨_, .more comma hderives hrestDerives, rfl⟩

end

theorem DerivesInit.placed {stop : Span} {blank : List Token} {tree : Option Expr}
    (hinit : DerivesInit stop blank tree) {tokens : List Token}
    (heq : tokens.map Token.bare = blank) :
    ∃ place init, DerivesInit place tokens init ∧ init.map Expr.bare = tree ∧
      stop = {} := by
  cases hinit with
  | absent =>
      obtain ⟨place, rfl, rfl⟩ := map_bare_eq_singleton heq
      exact ⟨place, none, .absent, rfl, rfl⟩
  | present mark hvalue =>
      obtain ⟨place, _, rfl, rfl, hafterMark⟩ := map_bare_eq_cons heq
      obtain ⟨_, _, rfl, hvalueTokens, hstop⟩ := List.map_eq_append_iff.mp hafterMark
      obtain ⟨stop, rfl, rfl⟩ := map_bare_eq_singleton hstop
      obtain ⟨value, hderives, rfl⟩ := hvalue.placed hvalueTokens
      exact ⟨stop, some value, .present place hderives, rfl, rfl⟩

theorem DerivesVariable.placed {blank : List Token} {tree : VariableDecl}
    (hdecl : DerivesVariable blank tree) {tokens : List Token}
    (heq : tokens.map Token.bare = blank) :
    ∃ decl, DerivesVariable tokens decl ∧ decl.bare = tree := by
  cases hdecl with
  | intro start middle stop type name hinit =>
      obtain ⟨start, _, rfl, rfl, hafterType⟩ := map_bare_eq_cons heq
      obtain ⟨middle, _, rfl, rfl, hafterName⟩ := map_bare_eq_cons hafterType
      obtain ⟨stop, init, hderives, rfl, rfl⟩ := hinit.placed hafterName
      exact ⟨_, .intro start middle stop type name hderives, rfl⟩

theorem DerivesEvaluation.placed {stop : Span} {blank : List Token} {tree : Expr}
    (hexpr : DerivesEvaluation stop blank tree) {tokens : List Token}
    (heq : tokens.map Token.bare = blank) :
    ∃ place expr, DerivesEvaluation place tokens expr ∧ expr.bare = tree ∧
      stop = {} := by
  cases hexpr with
  | intro hexpr =>
      obtain ⟨_, _, rfl, hexprTokens, hstop⟩ := List.map_eq_append_iff.mp heq
      obtain ⟨place, rfl, rfl⟩ := map_bare_eq_singleton hstop
      obtain ⟨expr, hderives, rfl⟩ := hexpr.placed hexprTokens
      exact ⟨place, expr, .intro hderives, rfl, rfl⟩

theorem DerivesCondition.placed {blank : List Token} {tree : Expr}
    (hcondition : DerivesCondition blank tree) {tokens : List Token}
    (heq : tokens.map Token.bare = blank) :
    ∃ expr, DerivesCondition tokens expr ∧ expr.bare = tree := by
  cases hcondition with
  | intro opening closing hexpr =>
      obtain ⟨opening, _, rfl, rfl, hafterOpening⟩ := map_bare_eq_cons heq
      obtain ⟨_, _, rfl, hexprTokens, hclosing⟩ := List.map_eq_append_iff.mp hafterOpening
      obtain ⟨closing, rfl, rfl⟩ := map_bare_eq_singleton hclosing
      obtain ⟨expr, hderives, rfl⟩ := hexpr.placed hexprTokens
      exact ⟨expr, .intro opening closing hderives, rfl⟩

mutual

theorem DerivesStmt.placed :
    ∀ {blank : List Token} {tree : Stmt}, DerivesStmt blank tree →
      ∀ {tokens : List Token}, tokens.map Token.bare = blank →
        ∃ stmt, DerivesStmt tokens stmt ∧ stmt.bare = tree
  | _, _, .declare hdecl => fun heq => by
      obtain ⟨decl, hderives, rfl⟩ := hdecl.placed heq
      exact ⟨_, .declare hderives, by simp [Stmt.bare]⟩
  | _, _, .evaluate _ hexpr => fun heq => by
      obtain ⟨stop, expr, hderives, rfl, rfl⟩ := hexpr.placed heq
      exact ⟨_, .evaluate stop hderives, by simp [Stmt.bare]⟩
  | _, _, .ifThen _ hcondition hbody => fun heq => by
      obtain ⟨start, _, rfl, rfl, hafterStart⟩ := map_bare_eq_cons heq
      obtain ⟨_, _, rfl, htest, hblock⟩ := List.map_eq_append_iff.mp hafterStart
      obtain ⟨test, htestDerives, rfl⟩ := hcondition.placed htest
      obtain ⟨body, hbodyDerives, rfl⟩ := hbody.placed hblock
      exact ⟨_, .ifThen start htestDerives hbodyDerives, by simp [Stmt.bare]⟩
  | _, _, .ifElse _ _ hcondition htrue hfalse => fun heq => by
      obtain ⟨start, _, rfl, rfl, hafterStart⟩ := map_bare_eq_cons heq
      obtain ⟨_, _, rfl, htest, hblocks⟩ := List.map_eq_append_iff.mp hafterStart
      obtain ⟨_, _, rfl, hfirst, hafterFirst⟩ := List.map_eq_append_iff.mp hblocks
      obtain ⟨middle, _, rfl, rfl, hsecond⟩ := map_bare_eq_cons hafterFirst
      obtain ⟨test, htestDerives, rfl⟩ := hcondition.placed htest
      obtain ⟨onTrue, htrueDerives, rfl⟩ := htrue.placed hfirst
      obtain ⟨onFalse, hfalseDerives, rfl⟩ := hfalse.placed hsecond
      exact ⟨_, .ifElse start middle htestDerives htrueDerives hfalseDerives,
        by simp [Stmt.bare]⟩
  | _, _, .loop _ hcondition hbody => fun heq => by
      obtain ⟨start, _, rfl, rfl, hafterStart⟩ := map_bare_eq_cons heq
      obtain ⟨_, _, rfl, htest, hblock⟩ := List.map_eq_append_iff.mp hafterStart
      obtain ⟨test, htestDerives, rfl⟩ := hcondition.placed htest
      obtain ⟨body, hbodyDerives, rfl⟩ := hbody.placed hblock
      exact ⟨_, .loop start htestDerives hbodyDerives, by simp [Stmt.bare]⟩
  | _, _, .leave _ _ => fun heq => by
      obtain ⟨start, _, rfl, rfl, hafterStart⟩ := map_bare_eq_cons heq
      obtain ⟨stop, rfl, rfl⟩ := map_bare_eq_singleton hafterStart
      exact ⟨_, .leave start stop, by simp [Stmt.bare]⟩
  | _, _, .leaveWith _ _ hvalue => fun heq => by
      obtain ⟨start, _, rfl, rfl, hafterStart⟩ := map_bare_eq_cons heq
      obtain ⟨stop, value, hderives, rfl, rfl⟩ := hvalue.placed hafterStart
      exact ⟨_, .leaveWith start stop hderives, by simp [Stmt.bare]⟩
  | _, _, .nest hblock => fun heq => by
      obtain ⟨block, hderives, rfl⟩ := hblock.placed heq
      exact ⟨_, .nest hderives, by simp [Stmt.bare]⟩

theorem DerivesBlock.placed :
    ∀ {blank : List Token} {tree : Block}, DerivesBlock blank tree →
      ∀ {tokens : List Token}, tokens.map Token.bare = blank →
        ∃ block, DerivesBlock tokens block ∧ block.bare = tree
  | _, _, .intro _ _ hstmts => fun heq => by
      obtain ⟨start, _, rfl, rfl, hafterStart⟩ := map_bare_eq_cons heq
      obtain ⟨_, _, rfl, hinner, hclosing⟩ := List.map_eq_append_iff.mp hafterStart
      obtain ⟨stop, rfl, rfl⟩ := map_bare_eq_singleton hclosing
      obtain ⟨stmts, hderives, rfl⟩ := hstmts.placed hinner
      exact ⟨_, .intro start stop hderives, by simp [Block.bare]⟩

theorem DerivesStmts.placed :
    ∀ {blank : List Token} {trees : List Stmt}, DerivesStmts blank trees →
      ∀ {tokens : List Token}, tokens.map Token.bare = blank →
        ∃ stmts, DerivesStmts tokens stmts ∧ Stmt.bareEach stmts = trees
  | _, _, .nil => fun heq => by
      rw [List.map_eq_nil_iff.mp heq]
      exact ⟨[], .nil, by simp [Stmt.bareEach]⟩
  | _, _, .cons hstmt hrest => fun heq => by
      obtain ⟨_, _, rfl, hfirst, hothers⟩ := List.map_eq_append_iff.mp heq
      obtain ⟨stmt, hderives, rfl⟩ := hstmt.placed hfirst
      obtain ⟨stmts, hrestDerives, rfl⟩ := hrest.placed hothers
      exact ⟨_, .cons hderives hrestDerives, by simp [Stmt.bareEach]⟩

end

theorem DerivesParameter.placed {blank : List Token} {tree : Parameter}
    (hparam : DerivesParameter blank tree) {tokens : List Token}
    (heq : tokens.map Token.bare = blank) :
    ∃ param, DerivesParameter tokens param ∧ param.bare = tree := by
  cases hparam with
  | intro start stop type name =>
      obtain ⟨start, _, rfl, rfl, hafterType⟩ := map_bare_eq_cons heq
      obtain ⟨stop, rfl, rfl⟩ := map_bare_eq_singleton hafterType
      exact ⟨_, .intro start stop type name, rfl⟩

theorem DerivesParameters.placed {blank : List Token} {trees : List Parameter}
    (hparams : DerivesParameters blank trees) :
    ∀ {tokens : List Token}, tokens.map Token.bare = blank →
      ∃ params, DerivesParameters tokens params ∧
        params.map Parameter.bare = trees := by
  induction hparams with
  | last hparam =>
      intro tokens heq
      obtain ⟨param, hderives, rfl⟩ := hparam.placed heq
      exact ⟨_, .last hderives, rfl⟩
  | more comma hparam hrest ih =>
      intro tokens heq
      obtain ⟨_, _, rfl, hfirst, hafterFirst⟩ := List.map_eq_append_iff.mp heq
      obtain ⟨comma, _, rfl, rfl, hothers⟩ := map_bare_eq_cons hafterFirst
      obtain ⟨param, hderives, rfl⟩ := hparam.placed hfirst
      obtain ⟨params, hrestDerives, rfl⟩ := ih hothers
      exact ⟨_, .more comma hderives hrestDerives, rfl⟩

theorem DerivesParameterList.placed {blank : List Token}
    {tree : Option (List Parameter)} (hparams : DerivesParameterList blank tree)
    {tokens : List Token} (heq : tokens.map Token.bare = blank) :
    ∃ params, DerivesParameterList tokens params ∧
      params.map (List.map Parameter.bare) = tree := by
  cases hparams with
  | absent =>
      rw [List.map_eq_nil_iff.mp heq]
      exact ⟨none, .absent, rfl⟩
  | present hparams =>
      obtain ⟨params, hderives, rfl⟩ := hparams.placed heq
      exact ⟨some params, .present hderives, rfl⟩

theorem DerivesItem.placed {blank : List Token} {tree : Item}
    (hitem : DerivesItem blank tree) {tokens : List Token}
    (heq : tokens.map Token.bare = blank) :
    ∃ item, DerivesItem tokens item ∧ item.bare = tree := by
  cases hitem with
  | global hdecl =>
      obtain ⟨decl, hderives, rfl⟩ := hdecl.placed heq
      exact ⟨_, .global hderives, rfl⟩
  | function start middle opening closing type name hparams hbody =>
      obtain ⟨start, _, rfl, rfl, hafterType⟩ := map_bare_eq_cons heq
      obtain ⟨middle, _, rfl, rfl, hafterName⟩ := map_bare_eq_cons hafterType
      obtain ⟨opening, _, rfl, rfl, hafterOpening⟩ := map_bare_eq_cons hafterName
      obtain ⟨_, _, rfl, hinner, hafterInner⟩ := List.map_eq_append_iff.mp hafterOpening
      obtain ⟨closing, _, rfl, rfl, hblock⟩ := map_bare_eq_cons hafterInner
      obtain ⟨params, hparamsDerive, rfl⟩ := hparams.placed hinner
      obtain ⟨body, hbodyDerives, rfl⟩ := hbody.placed hblock
      exact ⟨_, .function start middle opening closing type name hparamsDerive
        hbodyDerives, by simp [Item.bare, FunctionDecl.bare]⟩
  | expression stop hexpr =>
      obtain ⟨stop, expr, hderives, rfl, rfl⟩ := hexpr.placed heq
      exact ⟨_, .expression stop hderives, by simp [Item.bare]⟩

theorem DerivesItems.placed {blank : List Token} {trees : List Item}
    (hitems : DerivesItems blank trees) :
    ∀ {tokens : List Token}, tokens.map Token.bare = blank →
      ∃ items, DerivesItems tokens items ∧ items.map Item.bare = trees := by
  induction hitems with
  | nil =>
      intro tokens heq
      rw [List.map_eq_nil_iff.mp heq]
      exact ⟨[], .nil, rfl⟩
  | cons hitem hrest ih =>
      intro tokens heq
      obtain ⟨_, _, rfl, hfirst, hothers⟩ := List.map_eq_append_iff.mp heq
      obtain ⟨item, hderives, rfl⟩ := hitem.placed hfirst
      obtain ⟨items, hrestDerives, rfl⟩ := ih hothers
      exact ⟨_, .cons hderives hrestDerives, rfl⟩

end DeclCheck.Grammar
