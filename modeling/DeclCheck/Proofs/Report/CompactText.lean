import DeclCheck.Proofs.Parser.Exactness
import DeclCheck.Proofs.Report.Positions
import DeclCheck.Proofs.Token.Slices

/-!
# Compact text is source text

The compact text of a node is made from its tree.  It is also what stands in the source
under the span of the node, token by token, with the layout between the tokens left out.
For expressions this holds whatever errors the source has.  A block that was read with
errors inside may have lost statements, so for blocks the source has to be without syntax
errors.
-/

namespace DeclCheck

/-! ## Tokens under a span -/

/-- The good tokens of a source that lie within a span. -/
def tokensWithin (source : List Char) (span : Span) : List Token :=
  (goodTokens (lex source)).filter fun token =>
    span.start ≤ token.span.start && token.span.stop ≤ span.stop

/-- What stands in the source under a span, without the layout between tokens and
without what is no token. -/
def compactSource (source : List Char) (span : Span) : String :=
  String.join ((tokensWithin source span).map fun token =>
    String.ofList (token.span.slice source))

/-- Tokens that stand together are those within the span that they have together. -/
theorem tokensWithin_eq {source : List Char} {own : List Token} {span : Span}
    (hown : own <:+: goodTokens (lex source)) (hspans : Spans own span) :
    tokensWithin source span = own := by
  obtain ⟨before, after, htokens⟩ := hown
  have horder := goodTokens_inOrder source
  rw [← htokens, List.append_assoc] at horder
  obtain ⟨first, hfirst, last, hlast, hhead, hback, hstart, hstop, _⟩ := hspans.exists_tokens
  have hbefore : ∀ token ∈ before, ¬ span.start ≤ token.span.start := by
    intro token hmem
    have hnonempty := horder.nonempty token (List.mem_append_left _ hmem)
    have happart := horder.stop_le_start hmem (List.mem_append_left _ hfirst)
    omega
  have hafter : ∀ token ∈ after, ¬ token.span.stop ≤ span.stop := by
    intro token hmem
    have hnonempty := horder.right.nonempty token (List.mem_append_right _ hmem)
    have happart := horder.right.stop_le_start hlast hmem
    omega
  have hinside : ∀ token ∈ own,
      span.start ≤ token.span.start ∧ token.span.stop ≤ span.stop := by
    intro token hmem
    rw [hstart, hstop]
    exact ⟨horder.right.left.head_start_le hhead hmem,
      horder.right.left.stop_le_last hback hmem⟩
  rw [tokensWithin, ← htokens, List.filter_append, List.filter_append,
    List.filter_eq_nil_iff.mpr fun token hmem => by simp [hbefore token hmem],
    List.filter_eq_self.mpr fun token hmem => by simpa using hinside token hmem,
    List.filter_eq_nil_iff.mpr fun token hmem => by simp [hafter token hmem],
    List.nil_append, List.append_nil]

theorem compactSource_eq {source : List Char} {own : List Token} {span : Span}
    (hown : own <:+: goodTokens (lex source)) (hspans : Spans own span) :
    compactSource source span = String.join (own.map (·.kind.spelling)) := by
  rw [compactSource, tokensWithin_eq hown hspans]
  exact congrArg String.join
    (List.map_congr_left fun token hmem => slice_of_mem_goodTokens (hown.subset hmem))

/-! ## Lexemes of statements -/

namespace Grammar

variable {tokens : List Token}

theorem DerivesInit.lexemes_eq {stop : Span} {init : Option Expr}
    (hinit : DerivesInit stop tokens init) (type name : String) (span : Span) :
    VariableDecl.lexemes { type := type, name := name, init := init, span := span } =
      type :: name :: tokens.map (·.kind.spelling) := by
  cases hinit with
  | absent => rfl
  | present mark hvalue =>
      simp only [VariableDecl.lexemes, hvalue.lexemes_eq, List.map_cons, List.map_append]
      rfl

theorem DerivesVariable.lexemes_eq {decl : VariableDecl} (hdecl : DerivesVariable tokens decl) :
    decl.lexemes = tokens.map (·.kind.spelling) := by
  cases hdecl with
  | intro start middle stop type name hinit =>
      rw [hinit.lexemes_eq]
      rfl

theorem DerivesEvaluation.lexemes_eq {stop : Span} {expr : Expr}
    (hexpr : DerivesEvaluation stop tokens expr) :
    expr.lexemes ++ [Symbol.semicolon.spelling] = tokens.map (·.kind.spelling) := by
  cases hexpr with
  | intro hexpr =>
      rw [hexpr.lexemes_eq, List.map_append]
      rfl

theorem DerivesCondition.lexemes_eq {expr : Expr} (hexpr : DerivesCondition tokens expr)
    (more : List String) :
    Symbol.openParen.spelling :: (expr.lexemes ++ Symbol.closeParen.spelling :: more) =
      tokens.map (·.kind.spelling) ++ more := by
  cases hexpr with
  | intro opening closing hexpr =>
      simp only [hexpr.lexemes_eq, List.map_cons, List.map_append, List.map_nil,
        List.cons_append, List.append_assoc, List.nil_append]
      rfl

mutual

theorem DerivesStmt.lexemes_eq :
    ∀ {tokens : List Token} {stmt : Stmt}, DerivesStmt tokens stmt →
      stmt.lexemes = tokens.map (·.kind.spelling)
  | _, _, .declare hdecl => by rw [Stmt.lexemes, hdecl.lexemes_eq]
  | _, _, .evaluate _ hexpr => by rw [Stmt.lexemes, hexpr.lexemes_eq]
  | _, _, .ifThen _ hcondition hbody => by
      rw [Stmt.lexemes, hcondition.lexemes_eq, hbody.lexemes_eq, List.map_cons,
        List.map_append]
      rfl
  | _, _, .ifElse _ _ hcondition htrue hfalse => by
      rw [Stmt.lexemes, hcondition.lexemes_eq, htrue.lexemes_eq, hfalse.lexemes_eq,
        List.map_cons, List.map_append, List.map_append, List.map_cons]
      rfl
  | _, _, .loop _ hcondition hbody => by
      rw [Stmt.lexemes, hcondition.lexemes_eq, hbody.lexemes_eq, List.map_cons,
        List.map_append]
      rfl
  | _, _, .leave _ _ => rfl
  | _, _, .leaveWith _ _ hvalue => by
      rw [Stmt.lexemes, Option.toList_some, List.flatMap_singleton, hvalue.lexemes_eq,
        List.map_cons]
      rfl
  | _, _, .nest hblock => by rw [Stmt.lexemes, hblock.lexemes_eq]

theorem DerivesBlock.lexemes_eq :
    ∀ {tokens : List Token} {block : Block}, DerivesBlock tokens block →
      block.lexemes = tokens.map (·.kind.spelling)
  | _, _, .intro _ _ hstmts => by
      rw [Block.lexemes, hstmts.lexemes_eq, List.map_cons, List.map_append]
      rfl

theorem DerivesStmts.lexemes_eq :
    ∀ {tokens : List Token} {stmts : List Stmt}, DerivesStmts tokens stmts →
      Stmt.lexemesOfEach stmts = tokens.map (·.kind.spelling)
  | _, _, .nil => rfl
  | _, _, .cons hstmt hrest => by
      rw [Stmt.lexemesOfEach, hstmt.lexemes_eq, hrest.lexemes_eq, List.map_append]

end

theorem DerivesBlock.spans {block : Block} {offset : Nat} (hblock : DerivesBlock tokens block)
    (horder : InOrder offset tokens) : Spans tokens block.span := by
  cases hblock with
  | intro start stop hstmts =>
      exact (spans_single ⟨.symbol .openBrace, start⟩).cover _
        (spans_single ⟨.symbol .closeBrace, stop⟩) horder

theorem DerivesStmts.exists_of_mem :
    ∀ {tokens : List Token} {stmts : List Stmt}, DerivesStmts tokens stmts →
      ∀ {stmt : Stmt}, stmt ∈ stmts → ∃ own, own <:+: tokens ∧ DerivesStmt own stmt
  | _, _, .nil, _, hmem => by cases hmem
  | _, _, .cons hstmt hrest, _, hmem => by
      rcases List.mem_cons.mp hmem with rfl | hmem
      · exact ⟨_, (List.prefix_append _ _).isInfix, hstmt⟩
      · obtain ⟨own, hown, hderives⟩ := hrest.exists_of_mem hmem
        exact ⟨own, hown.trans (List.suffix_append _ _).isInfix, hderives⟩

theorem DerivesItems.exists_of_mem :
    ∀ {tokens : List Token} {items : List Item}, DerivesItems tokens items →
      ∀ {item : Item}, item ∈ items → ∃ own, own <:+: tokens ∧ DerivesItem own item
  | _, _, .nil, _, hmem => by cases hmem
  | _, _, .cons hitem hrest, _, hmem => by
      rcases List.mem_cons.mp hmem with rfl | hmem
      · exact ⟨_, (List.prefix_append _ _).isInfix, hitem⟩
      · obtain ⟨own, hown, hderives⟩ := hrest.exists_of_mem hmem
        exact ⟨own, hown.trans (List.suffix_append _ _).isInfix, hderives⟩

end Grammar

/-! ## Nodes -/

namespace Node

/-- The outermost expressions of a node. -/
def sites : Node → List Expr
  | item own => own.sites
  | variableDecl decl => decl.init.toList
  | functionDecl decl => decl.sites
  | parameter _ => []
  | block own => own.sites
  | stmt own => own.sites
  | expr own => [own]

theorem cases_of_mem_children_stmt {stmt : Stmt} {inner : Node}
    (hinner : inner ∈ (Node.stmt stmt).children) :
    (∃ decl, stmt = .declare decl ∧ inner = variableDecl decl) ∨
      (∃ expr ∈ stmt.ownExprs, inner = .expr expr) ∨
      ∃ block ∈ stmt.ownBlocks, inner = .block block := by
  cases stmt with
  | declare decl => exact .inl ⟨decl, rfl, List.mem_singleton.mp hinner⟩
  | _ =>
      rcases List.mem_append.mp hinner with hinner | hinner
      · obtain ⟨expr, hexpr, rfl⟩ := List.mem_map.mp hinner
        exact .inr (.inl ⟨expr, hexpr, rfl⟩)
      · obtain ⟨block, hblock, rfl⟩ := List.mem_map.mp hinner
        exact .inr (.inr ⟨block, hblock, rfl⟩)

/-- What an outermost expression of a child holds, an outermost expression of the node
holds. -/
theorem exists_site_of_child {outer inner : Node} (hinner : inner ∈ outer.children)
    {site node : Expr} (hsite : site ∈ inner.sites) (hnode : site.Within node) :
    ∃ own ∈ outer.sites, own.Within node := by
  cases outer with
  | item own =>
      cases own <;> (rw [List.mem_singleton.mp hinner] at hsite; exact ⟨site, hsite, hnode⟩)
  | variableDecl decl =>
      obtain ⟨value, hvalue, rfl⟩ := List.mem_map.mp hinner
      rw [List.mem_singleton.mp hsite] at hnode
      exact ⟨value, hvalue, hnode⟩
  | functionDecl decl =>
      rcases List.mem_append.mp hinner with hinner | hinner
      · obtain ⟨param, _, rfl⟩ := List.mem_map.mp hinner
        cases hsite
      · obtain ⟨⟨span, stmts⟩, hbody, rfl⟩ := List.mem_map.mp hinner
        refine ⟨site, ?_, hnode⟩
        rw [sites, FunctionDecl.sites, FunctionDecl.statements, Option.mem_toList.mp hbody]
        exact hsite
  | parameter param => cases hinner
  | block own =>
      obtain ⟨span, stmts⟩ := own
      obtain ⟨stmt, hstmt, rfl⟩ := List.mem_map.mp hinner
      exact ⟨site, Stmt.mem_sitesOfEach hstmt hsite, hnode⟩
  | stmt own =>
      refine ⟨site, ?_, hnode⟩
      rcases cases_of_mem_children_stmt hinner with
        ⟨decl, rfl, rfl⟩ | ⟨expr, hexpr, rfl⟩ | ⟨block, hblock, rfl⟩
      · exact Stmt.mem_sites_of_own hsite
      · rw [List.mem_singleton.mp hsite]
        exact Stmt.mem_sites_of_own hexpr
      · exact Stmt.mem_sites_of_block hblock hsite
  | expr own =>
      obtain ⟨child, hchild, rfl⟩ := List.mem_map.mp hinner
      rw [List.mem_singleton.mp hsite] at hnode
      exact ⟨own, List.mem_singleton_self own, .child hchild hnode⟩

theorem exists_site_of_within {outer node : Node} (hwithin : outer.Within node) :
    ∀ {expr : Expr}, node = .expr expr → ∃ site ∈ outer.sites, site.Within expr := by
  induction hwithin with
  | self node =>
      rintro expr rfl
      exact ⟨expr, List.mem_singleton_self expr, .self expr⟩
  | child hinner _ ih =>
      intro expr hnode
      obtain ⟨site, hsite, hexpr⟩ := ih hnode
      exact exists_site_of_child hinner hsite hexpr

open Grammar

/-- The tokens derive the node, if it is of a kind that can hold blocks. -/
def Derives (tokens : List Token) : Node → Prop
  | item own => DerivesItem tokens own
  | functionDecl decl => DerivesItem tokens (.function decl)
  | block own => DerivesBlock tokens own
  | stmt own => DerivesStmt tokens own
  | _ => True

theorem derives_of_ownBlocks {tokens : List Token} {stmt : Stmt}
    (hstmt : DerivesStmt tokens stmt) {block : Block} (hblock : block ∈ stmt.ownBlocks) :
    ∃ own, own <:+: tokens ∧ DerivesBlock own block := by
  cases hstmt with
  | ifThen start hcondition hbody =>
      rw [List.mem_singleton.mp hblock]
      exact ⟨_, ((List.suffix_append _ _).trans (List.suffix_cons _ _)).isInfix, hbody⟩
  | ifElse start middle hcondition htrue hfalse =>
      rcases List.mem_pair.mp hblock with rfl | rfl
      · refine ⟨_, ?_, htrue⟩
        exact (List.prefix_append _ _).isInfix.trans
          ((List.suffix_append _ _).trans (List.suffix_cons _ _)).isInfix
      · refine ⟨_, ?_, hfalse⟩
        exact ((List.suffix_cons _ _).trans ((List.suffix_append _ _).trans
          ((List.suffix_append _ _).trans (List.suffix_cons _ _)))).isInfix
  | loop start hcondition hbody =>
      rw [List.mem_singleton.mp hblock]
      exact ⟨_, ((List.suffix_append _ _).trans (List.suffix_cons _ _)).isInfix, hbody⟩
  | nest hinner =>
      rw [List.mem_singleton.mp hblock]
      exact ⟨_, List.infix_refl _, hinner⟩
  | _ => cases hblock

theorem Derives.child {tokens : List Token} {outer inner : Node} (houter : outer.Derives tokens)
    (hinner : inner ∈ outer.children) : ∃ own, own <:+: tokens ∧ inner.Derives own := by
  cases outer with
  | item own =>
      refine ⟨tokens, List.infix_refl _, ?_⟩
      cases own <;> rw [List.mem_singleton.mp hinner]
      · trivial
      · exact houter
      · trivial
  | functionDecl decl =>
      rcases List.mem_append.mp hinner with hinner | hinner
      · obtain ⟨param, _, rfl⟩ := List.mem_map.mp hinner
        exact ⟨tokens, List.infix_refl _, trivial⟩
      · obtain ⟨body, hbody, rfl⟩ := List.mem_map.mp hinner
        cases houter with
        | function start middle opening closing type name hparams hderives =>
            rw [List.mem_singleton.mp hbody]
            refine ⟨_, List.IsSuffix.isInfix ?_, hderives⟩
            exact (List.suffix_cons _ _).trans ((List.suffix_append _ _).trans
              (List.suffix_append [_, _, _] _))
  | block own =>
      obtain ⟨stmt, hstmt, rfl⟩ := List.mem_map.mp hinner
      cases houter with
      | intro start stop hstmts =>
          obtain ⟨own, hown, hderives⟩ := hstmts.exists_of_mem hstmt
          refine ⟨own, hown.trans ?_, hderives⟩
          exact (List.prefix_append _ _).isInfix.trans (List.suffix_cons _ _).isInfix
  | stmt own =>
      rcases cases_of_mem_children_stmt hinner with
        ⟨decl, rfl, rfl⟩ | ⟨expr, hexpr, rfl⟩ | ⟨block, hblock, rfl⟩
      · exact ⟨tokens, List.infix_refl _, trivial⟩
      · exact ⟨tokens, List.infix_refl _, trivial⟩
      · exact derives_of_ownBlocks houter hblock
  | variableDecl decl =>
      obtain ⟨value, _, rfl⟩ := List.mem_map.mp hinner
      exact ⟨tokens, List.infix_refl _, trivial⟩
  | parameter param => cases hinner
  | expr own =>
      obtain ⟨child, _, rfl⟩ := List.mem_map.mp hinner
      exact ⟨tokens, List.infix_refl _, trivial⟩

theorem Derives.within {outer node : Node} (hwithin : outer.Within node) :
    ∀ {tokens : List Token}, outer.Derives tokens →
      ∃ own, own <:+: tokens ∧ node.Derives own := by
  induction hwithin with
  | self node => exact fun houter => ⟨_, List.infix_refl _, houter⟩
  | child hinner _ ih =>
      intro tokens houter
      obtain ⟨middle, hmiddle, hchild⟩ := houter.child hinner
      obtain ⟨own, hown, hnode⟩ := ih hchild
      exact ⟨own, hown.trans hmiddle, hnode⟩

end Node

/-! ## Programs -/

theorem text_of_hasNode_expr {source : List Char} {expr : Expr}
    (hnode : (parse source).program.HasNode (.expr expr)) :
    expr.text = compactSource source expr.span := by
  obtain ⟨item, hitem, hwithin⟩ := hnode
  obtain ⟨site, hsite, hexpr⟩ := Node.exists_site_of_within hwithin rfl
  obtain ⟨own, hown, hderives⟩ :=
    (Parser.readAmong_of_parse hitem (Item.mem_sites_iff.mp hsite) hexpr).phrase
  have horder := (goodTokens_inOrder source).sublist hown.sublist
  have hspans : Spans own expr.span := (hderives.placedOn horder).spans
  rw [compactSource_eq hown hspans, Expr.text, hderives.lexemes_eq]

theorem text_of_hasNode_block {source : List Char} (hclean : (parse source).syntaxErrors = [])
    {block : Block} (hnode : (parse source).program.HasNode (.block block)) :
    block.text = compactSource source block.span := by
  obtain ⟨item, hitem, hwithin⟩ := hnode
  obtain ⟨tokens, htokens, hderives⟩ :=
    (Parser.derives_of_syntaxErrors_eq_nil hclean).exists_of_mem hitem
  obtain ⟨own, hown, hblock⟩ := Node.Derives.within hwithin hderives
  have hinfix := hown.trans htokens
  have horder := (goodTokens_inOrder source).sublist hinfix.sublist
  rw [compactSource_eq hinfix (Grammar.DerivesBlock.spans hblock horder), Block.text,
    Grammar.DerivesBlock.lexemes_eq hblock]

/-- The compact text of an expression, and in a source without syntax errors that of a
block, is what stands in the source under its span, token by token. -/
theorem text_eq_compactSource (source : List Char) :
    (∀ expr, (parse source).program.HasNode (.expr expr) →
      expr.text = compactSource source expr.span) ∧
    ((parse source).syntaxErrors = [] →
      ∀ block, (parse source).program.HasNode (.block block) →
        block.text = compactSource source block.span) :=
  ⟨fun _ hnode => text_of_hasNode_expr hnode,
    fun hclean _ hnode => text_of_hasNode_block hclean hnode⟩

/-- A call next to a character that is no token and before a statement that cannot be
read, and a body that is written on two lines. -/
theorem text_eq_compactSource_spaced :
    let damaged := "x = @ f( 1 ,\n y ); if ;".toList
    let clean := "int f ( ) \x7b\n return g( 1 , x ); \x7d".toList
    (∃ expr, (parse damaged).program.HasNode (.expr expr) ∧ expr.text = "x=f(1,y)" ∧
      compactSource damaged expr.span = "x=f(1,y)") ∧
    (parse clean).syntaxErrors = [] ∧
    ∃ block, (parse clean).program.HasNode (.block block) ∧
      block.text = "\x7breturng(1,x);\x7d" ∧
      compactSource clean block.span = "\x7breturng(1,x);\x7d" := by
  intro damaged clean
  have hsite : ∃ item ∈ (parse damaged).program.items, ∃ site ∈ item.sites,
      site.text = "x=f(1,y)" := by
    decide +kernel
  have hbody : ∃ function ∈ (parse clean).program.functions, ∃ body ∈ function.body.toList,
      body.text = "\x7breturng(1,x);\x7d" := by
    decide +kernel
  have hclean : (parse clean).syntaxErrors = [] := by decide +kernel
  obtain ⟨item, hitem, expr, hmem, hexpr⟩ := hsite
  obtain ⟨function, hfunction, block, hmemBody, hblock⟩ := hbody
  have hnode : (parse damaged).program.HasNode (.expr expr) :=
    ⟨item, hitem, Node.within_of_hasSite (Item.mem_sites_iff.mp hmem)⟩
  have hblockNode : (parse clean).program.HasNode (.block block) := by
    obtain ⟨own, hown, hsame⟩ := List.mem_filterMap.mp hfunction
    cases own with
    | function decl =>
        cases hsame
        exact ⟨_, hown, .child List.mem_cons_self
          (.child (List.mem_append_right _ (List.mem_map_of_mem hmemBody)) (.self _))⟩
    | _ => cases hsame
  refine ⟨⟨expr, hnode, hexpr, ?_⟩, hclean, block, hblockNode, hblock, ?_⟩
  · rw [← hexpr, (text_eq_compactSource damaged).1 expr hnode]
  · rw [← hblock, (text_eq_compactSource clean).2 hclean block hblockNode]

end DeclCheck
