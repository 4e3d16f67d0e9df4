import DeclCheck.Proofs.Grammar.Text
import DeclCheck.Proofs.Parser.Answers
import DeclCheck.Proofs.Parser.Nesting

/-!
# What a program that was read consists of

Whatever errors a source has, every expression that stands in the program read from
it is a phrase of the grammar somewhere among the tokens, and its cost fits into the
nesting budget.  The names of functions and variables are identifiers among the
tokens, and syntax errors come up among them.
-/

namespace DeclCheck.Parser

open Grammar

variable {α : Type}

/-- The expression was read somewhere among the tokens. -/
structure ReadAmong (tokens : List Token) (expr : Expr) : Prop where
  phrase : ∃ phrase, phrase <:+: tokens ∧ DerivesExpr .expression phrase expr
  budget : constructCost + expr.nesting ≤ nestingBudget

/-- What stands inside an expression was read among the same tokens. -/
theorem ReadAmong.within {tokens : List Token} {expr node : Expr}
    (hread : ReadAmong tokens expr) (hnode : expr.Within node) :
    ReadAmong tokens node where
  phrase := by
    obtain ⟨outer, houter, hexpr⟩ := hread.phrase
    obtain ⟨phrase, hphrase, hderives⟩ := hexpr.within hnode
    exact ⟨phrase, hphrase.trans houter, hderives⟩
  budget := Nat.le_trans (Nat.add_le_add_left hnode.nesting_le _) hread.budget

/-- The name is the name of one of the tokens. -/
def NamedAmong (tokens : List Token) (name : String) : Prop :=
  TokenKind.identifier name ∈ tokens.map Token.kind

/-- The parts of the declaration were read among the tokens. -/
structure VariableRead (tokens : List Token) (decl : VariableDecl) : Prop where
  type : ∃ type : TypeName, decl.type = type.spelling
  name : NamedAmong tokens decl.name
  init : ∀ expr ∈ decl.init.toList, ReadAmong tokens expr

/-- The parts of the statements were read among the tokens: the variables that they
declare, and the expressions that they hold at any depth. -/
structure StmtsRead (tokens : List Token) (stmts : List Stmt) : Prop where
  declared : ∀ decl ∈ stmts.filterMap Stmt.declared?, VariableRead tokens decl
  sites : ∀ expr ∈ Stmt.sitesOfEach stmts, ReadAmong tokens expr

/-- The parts of the function were read among the tokens. -/
structure FunctionRead (tokens : List Token) (function : FunctionDecl) : Prop where
  name : NamedAmong tokens function.name
  params : ∀ param ∈ function.parameters, ∃ type : TypeName, param.type = type.spelling
  body : StmtsRead tokens function.statements

/-- The parts of the item were read among the tokens. -/
def ItemRead (tokens : List Token) : Item → Prop
  | .global decl => VariableRead tokens decl
  | .function decl => FunctionRead tokens decl
  | .expression _ expr => ReadAmong tokens expr

theorem ItemRead.sites {tokens : List Token} {item : Item} (hitem : ItemRead tokens item) :
    ∀ expr ∈ item.sites, ReadAmong tokens expr := by
  cases item with
  | global decl => exact VariableRead.init hitem
  | function decl => exact (FunctionRead.body hitem).sites
  | expression span own => exact List.forall_mem_singleton.mpr hitem

section Items

variable {tokens : List Token} {program : Program}
  (hitems : ∀ item ∈ program.items, ItemRead tokens item)
include hitems

theorem functionRead_of_mem {function : FunctionDecl}
    (hmem : function ∈ program.functions) : FunctionRead tokens function :=
  hitems _ (Program.mem_functions_iff.mp hmem)

theorem variableRead_of_mem {decl : VariableDecl}
    (hmem : decl ∈ program.globals) : VariableRead tokens decl :=
  hitems _ (Program.mem_globals_iff.mp hmem)

end Items

section Reading

variable {tokens : List Token} {endSpan : Span}

/-! ## Parts without blocks -/

theorem expression_answers : Answers tokens endSpan expression (ReadAmong tokens) := by
  have hreads : Reads expression fun phrase expr =>
      DerivesExpr .expression phrase expr ∧
        constructCost + expr.nesting ≤ nestingBudget := by
    intro state after expr hrun
    obtain ⟨phrase, hconsumed, hderives⟩ := expression_reads hrun
    exact ⟨phrase, hconsumed, hderives, nesting_le_of_expression hrun⟩
  apply (stays_compositional.expression.reads hreads).mono
  rintro expr ⟨phrase, hphrase, hderives, hbudget⟩
  exact ⟨⟨phrase, hphrase, hderives⟩, hbudget⟩

theorem some_expression_answers :
    Answers tokens endSpan (some <$> expression) fun read =>
      ∀ expr ∈ read.toList, ReadAmong tokens expr := by
  apply expression_answers.map
  intro value hvalue
  exact List.forall_mem_singleton.mpr hvalue

theorem none_answers :
    Answers tokens endSpan (pure none) fun read => ∀ expr ∈ read.toList, ReadAmong tokens expr :=
  .pure (List.forall_mem_nil _)

theorem variableAfter_answers (type : TypeName) (start : Span) {name : String}
    (hname : NamedAmong tokens name) :
    Answers tokens endSpan (variableAfter type start name) (VariableRead tokens) := by
  have hstop : ∀ init : Option Expr, (∀ expr ∈ init.toList, ReadAmong tokens expr) →
      Answers tokens endSpan (do
        let stop ← symbol .semicolon
        return { type := type.spelling, name := name, init := init,
                 span := start.cover stop : VariableDecl }) (VariableRead tokens) := by
    intro init hinit
    apply (symbol_stays _).bind
    intro stop
    exact .pure ⟨⟨type, rfl⟩, hname, hinit⟩
  apply (at?_stays _).bind
  intro found
  split
  · exact shift_stays.bind fun _ => some_expression_answers.bind hstop
  · exact none_answers.bind hstop

theorem variableDecl_answers : Answers tokens endSpan variableDecl (VariableRead tokens) := by
  apply typeName_stays.bind
  intro type
  apply identifier_answers.bind
  intro name hname
  exact variableAfter_answers _ _ hname

theorem condition_answers : Answers tokens endSpan condition (ReadAmong tokens) := by
  apply (symbol_stays _).bind
  intro _
  apply expression_answers.bind
  intro expr hexpr
  exact (symbol_stays _).bind fun _ => .pure hexpr

theorem evaluation_answers :
    Answers tokens endSpan evaluation fun read => ReadAmong tokens read.1 := by
  apply expression_answers.bind
  intro expr hexpr
  exact (symbol_stays _).bind fun _ => .pure hexpr

theorem parameter_answers :
    Answers tokens endSpan parameter fun param =>
      ∃ type : TypeName, param.type = type.spelling := by
  apply typeName_stays.bind
  intro type
  apply identifier_answers.bind
  intro name _
  exact .pure ⟨type.1, rfl⟩

/-! ## Statements and blocks -/

/-- A statement is read if it is, taken as the only one. -/
def StmtRead (tokens : List Token) (stmt : Stmt) : Prop :=
  StmtsRead tokens [stmt]

theorem stmtsRead_nil : StmtsRead tokens [] :=
  ⟨List.forall_mem_nil _, List.forall_mem_nil _⟩

theorem StmtsRead.cons {stmt : Stmt} {rest : List Stmt} (hstmt : StmtRead tokens stmt)
    (hrest : StmtsRead tokens rest) : StmtsRead tokens (stmt :: rest) where
  declared := by
    rw [← List.singleton_append, List.filterMap_append, List.forall_mem_append]
    exact ⟨hstmt.declared, hrest.declared⟩
  sites := by
    have hsites := hstmt.sites
    rw [Stmt.sitesOfEach, Stmt.sitesOfEach, List.append_nil] at hsites
    rw [Stmt.sitesOfEach, List.forall_mem_append]
    exact ⟨hsites, hrest.sites⟩

/-- A statement that declares nothing is read if its expressions are. -/
theorem stmtRead_of_sites {stmt : Stmt} (hdeclared : stmt.declared? = none)
    (hsites : ∀ expr ∈ stmt.sites, ReadAmong tokens expr) : StmtRead tokens stmt where
  declared := by
    rw [List.filterMap_cons_none hdeclared]
    exact List.forall_mem_nil _
  sites := by
    rwa [Stmt.sitesOfEach, Stmt.sitesOfEach, List.append_nil]

theorem leave_answers : Answers tokens endSpan leave (StmtRead tokens) := by
  have hstop : ∀ (start : Token) (value : Option Expr),
      (∀ expr ∈ value.toList, ReadAmong tokens expr) →
      Answers tokens endSpan (do
        let stop ← symbol .semicolon
        return Stmt.leave (start.span.cover stop) value) (StmtRead tokens) := by
    intro start value hvalue
    apply (symbol_stays _).bind
    intro stop
    exact .pure (stmtRead_of_sites rfl hvalue)
  apply shift_stays.bind
  intro start
  apply (at?_stays _).bind
  intro found
  split
  · exact none_answers.bind (hstop start)
  · exact some_expression_answers.bind (hstop start)

/-- Every expression that the block holds was read among the tokens, and so were the
variables declared directly in it. -/
def BlockRead (tokens : List Token) (block : Block) : Prop :=
  StmtsRead tokens block.stmts

theorem BlockRead.sites {block : Block} (hblock : BlockRead tokens block) :
    ∀ expr ∈ block.sites, ReadAmong tokens expr := by
  cases block with
  | mk span stmts => exact StmtsRead.sites hblock

section Blocks

variable {block : Parser Block} (hblock : Answers tokens endSpan block (BlockRead tokens))
include hblock

theorem conditional_answers : Answers tokens endSpan (conditional block) (StmtRead tokens) := by
  apply shift_stays.bind
  intro start
  apply condition_answers.bind
  intro test htest
  apply hblock.bind
  intro onTrue htrue
  apply peek_answers.bind
  intro token _
  split
  · apply shift_stays.bind
    intro _
    apply hblock.bind
    intro onFalse hfalse
    apply Answers.pure
    apply stmtRead_of_sites rfl
    rw [Stmt.sites, List.forall_mem_cons, List.forall_mem_append]
    exact ⟨htest, htrue.sites, hfalse.sites⟩
  · apply Answers.pure
    apply stmtRead_of_sites rfl
    rw [Stmt.sites, List.forall_mem_cons]
    exact ⟨htest, htrue.sites⟩

theorem whileLoop_answers : Answers tokens endSpan (whileLoop block) (StmtRead tokens) := by
  apply shift_stays.bind
  intro start
  apply condition_answers.bind
  intro test htest
  apply hblock.bind
  intro body hbody
  apply Answers.pure
  apply stmtRead_of_sites rfl
  rw [Stmt.sites, List.forall_mem_cons]
  exact ⟨htest, hbody.sites⟩

theorem statement_answers : Answers tokens endSpan (statement block) (StmtRead tokens) := by
  apply peek_answers.bind
  intro token _
  split
  · apply variableDecl_answers.bind
    intro decl hdecl
    apply Answers.pure
    constructor
    · exact List.forall_mem_singleton.mpr hdecl
    · rw [Stmt.sitesOfEach, Stmt.sitesOfEach, List.append_nil]
      exact hdecl.init
  · exact conditional_answers hblock
  · exact whileLoop_answers hblock
  · exact leave_answers
  · apply hblock.bind
    intro inner hinner
    apply Answers.pure
    apply stmtRead_of_sites rfl
    rw [Stmt.sites]
    exact hinner.sites
  · apply evaluation_answers.bind
    intro read hread
    apply Answers.pure
    exact stmtRead_of_sites rfl (List.forall_mem_singleton.mpr hread)

end Blocks

/-- A round with recovery files the error it recovers from, and goes on among the
tokens. -/
theorem recover_answers {parser : Parser α} {holds : α → Prop}
    (hparser : Answers tokens endSpan parser holds) {state : ParserState}
    (hstate : Among tokens endSpan state) :
    Among tokens endSpan (recover parser state).2 ∧
      ∀ value ∈ (recover parser state).1, holds value := by
  cases hrun : parser state with
  | ok value after =>
      obtain ⟨hafter, hvalue⟩ := hparser.of_ok hstate hrun
      rw [recover, hrun]
      refine ⟨hafter, ?_⟩
      rintro _ ⟨⟩
      exact hvalue
  | error error after =>
      obtain ⟨hafter, herror⟩ := hparser.of_error hstate hrun
      rw [recover, hrun]
      constructor
      · refine ⟨(resume_suffix _).trans hafter.left, hafter.endSpan_eq, ?_⟩
        rw [List.forall_mem_append, List.forall_mem_singleton]
        exact ⟨hafter.reports, herror⟩
      · rintro _ ⟨⟩

theorem statementsWithin_answers {statement : Parser Stmt}
    (hstatement : Answers tokens endSpan statement (StmtRead tokens)) (bound : Nat) :
    ∀ state : ParserState, Among tokens endSpan state →
      Among tokens endSpan (statementsWithin statement bound state).2 ∧
        StmtsRead tokens (statementsWithin statement bound state).1 := by
  induction bound with
  | zero => exact fun state hstate => ⟨hstate, stmtsRead_nil⟩
  | succ bound ih =>
      intro state hstate
      rw [statementsWithin]
      split
      · exact ⟨hstate, stmtsRead_nil⟩
      · obtain ⟨hafter, hread⟩ := recover_answers hstatement hstate
        obtain ⟨hlast, hrest⟩ := ih _ hafter
        have hboth : StmtsRead tokens ((recover statement state).1.toList ++
            (statementsWithin statement bound (recover statement state).2).1) := by
          cases hstmt : (recover statement state).1 with
          | none => exact hrest
          | some stmt => exact .cons (hread stmt hstmt) hrest
        exact ⟨hlast, hboth⟩

theorem braced_answers {statement : Parser Stmt}
    (hstatement : Answers tokens endSpan statement (StmtRead tokens)) :
    Answers tokens endSpan (braced statement) (BlockRead tokens) := by
  have hstatements : Answers tokens endSpan (statements statement) (StmtsRead tokens) :=
    fun state hstate => statementsWithin_answers hstatement _ state hstate
  apply (symbol_stays _).bind
  intro start
  apply hstatements.bind
  intro stmts hstmts
  exact (symbol_stays _).bind fun stop => .pure hstmts

theorem blockWithin_answers (levels : Nat) :
    Answers tokens endSpan (blockWithin levels) (BlockRead tokens) := by
  induction levels with
  | zero => exact tooDeep_answers _
  | succ levels ih => exact (braced_answers (statement_answers ih)).budgeted _ _

/-! ## Items -/

theorem functionAfter_answers (type : TypeName) (start : Span) {name : String}
    (hname : NamedAmong tokens name) :
    Answers tokens endSpan (functionAfter type start name) (FunctionRead tokens) := by
  have hrest : ∀ params : Option (List Parameter),
      (∀ param ∈ params.getD [], ∃ type : TypeName, param.type = type.spelling) →
      Answers tokens endSpan (do
        let _ ← symbol .closeParen
        let body ← block
        return { returnType := type.spelling, name := name, params := params,
                 body := some body, span := start.cover body.span : FunctionDecl })
        (FunctionRead tokens) := by
    intro params hparams
    apply (symbol_stays _).bind
    intro _
    apply (blockWithin_answers _).bind
    intro body hbody
    exact .pure ⟨hname, hparams, hbody⟩
  apply (symbol_stays _).bind
  intro _
  apply (at?_stays _).bind
  intro found
  split
  · exact Answers.bind (.pure (List.forall_mem_nil _)) hrest
  · exact ((separatedByCommas_answers parameter_answers).map some fun _ hparams =>
      hparams).bind hrest

theorem declaration_answers : Answers tokens endSpan declaration (ItemRead tokens) := by
  apply typeName_stays.bind
  intro type
  apply identifier_answers.bind
  intro name hname
  apply (at?_stays _).bind
  intro found
  split
  · exact (functionAfter_answers _ _ hname).bind fun decl hdecl => .pure hdecl
  · exact (variableAfter_answers _ _ hname).bind fun decl hdecl => .pure hdecl

theorem item_answers : Answers tokens endSpan item (ItemRead tokens) := by
  apply peek_answers.bind
  intro token _
  split
  · exact declaration_answers
  · exact evaluation_answers.bind fun read hread => .pure hread

theorem itemStep_answers {state : ParserState} (hstate : Among tokens endSpan state) :
    Among tokens endSpan (itemStep state).2 ∧
      ∀ read ∈ (itemStep state).1, ItemRead tokens read := by
  obtain ⟨hafter, hread⟩ := recover_answers item_answers hstate
  rw [itemStep]
  split
  · rename_i hsome
    rw [hsome] at hafter hread
    exact ⟨hafter, hread⟩
  · rename_i after hnone
    rw [hnone] at hafter
    constructor
    · exact ⟨(dropCloseBrace_suffix _).trans hafter.left, hafter.endSpan_eq, hafter.reports⟩
    · rintro _ ⟨⟩

theorem itemsWithin_answers (bound : Nat) :
    ∀ state : ParserState, Among tokens endSpan state →
      Among tokens endSpan (itemsWithin bound state).2 ∧
        ∀ read ∈ (itemsWithin bound state).1, ItemRead tokens read := by
  induction bound with
  | zero => exact fun _ hstate => ⟨hstate, List.forall_mem_nil _⟩
  | succ bound ih =>
      intro state hstate
      rw [itemsWithin]
      split
      · exact ⟨hstate, List.forall_mem_nil _⟩
      · obtain ⟨hafter, hread⟩ := itemStep_answers hstate
        obtain ⟨hlast, hrest⟩ := ih _ hafter
        refine ⟨hlast, ?_⟩
        rw [List.forall_mem_append]
        exact ⟨fun read hmem => hread read (Option.mem_toList.mp hmem), hrest⟩

end Reading

/-! ## Sources -/

/-- The errors are those of the lexer and those of the parser. -/
theorem forall_mem_interleave_iff {holds : SourceError → Prop} (reports : List Report) :
    ∀ lexical : List LexError, (∀ error ∈ interleave lexical reports, holds error) ↔
      (∀ error ∈ lexical, holds (.lexical error)) ∧
        ∀ report ∈ reports, holds (.syntactic report.error) := by
  induction reports with
  | nil =>
      intro lexical
      rw [interleave, List.forall_mem_map]
      exact (and_iff_left (List.forall_mem_nil _)).symm
  | cons report rest ih =>
      intro lexical
      have hlexical : (∀ error ∈ lexical, holds (.lexical error)) ↔
          (∀ error ∈ lexical.takeWhile (·.span.start < report.raisedAt.start),
            holds (.lexical error)) ∧
          ∀ error ∈ lexical.dropWhile (·.span.start < report.raisedAt.start),
            holds (.lexical error) := by
        rw [← List.forall_mem_append, List.takeWhile_append_dropWhile]
      rw [interleave, List.forall_mem_append, List.forall_mem_map, List.forall_mem_cons,
        List.forall_mem_cons, ih, hlexical, and_assoc, and_left_comm (a := holds _)]

/-- Reading starts among the tokens, with no error filed. -/
theorem items_answers (tokens : List Token) (endSpan : Span) :
    Among tokens endSpan (items tokens endSpan).2 ∧
      ∀ read ∈ (items tokens endSpan).1, ItemRead tokens read := by
  apply itemsWithin_answers
  exact ⟨List.suffix_refl _, rfl, List.forall_mem_nil _⟩

theorem itemRead_of_parse {source : List Char} {item : Item}
    (hitem : item ∈ (parse source).program.items) :
    ItemRead (goodTokens (lex source)) item :=
  (items_answers _ _).2 item hitem

/-- What holds of the errors of a source text. -/
theorem forall_mem_errors_iff {holds : SourceError → Prop} (source : List Char) :
    (∀ error ∈ (parse source).errors, holds error) ↔
      (∀ error ∈ lexErrors (lex source), holds (.lexical error)) ∧
        ∀ report ∈ (items (goodTokens (lex source)) (endSpan source)).2.reports,
          holds (.syntactic report.error) :=
  forall_mem_interleave_iff _ _

theorem arises_of_mem_reports {source : List Char} {report : Report}
    (hmem : report ∈ (items (goodTokens (lex source)) (endSpan source)).2.reports) :
    report.error.Arises (goodTokens (lex source)) (endSpan source) :=
  (items_answers _ _).1.reports report hmem

/-- Every node of an expression that stands in the program was read among the tokens
of the source, also if the source has errors. -/
theorem readAmong_of_parse {source : List Char} {item : Item} {site node : Expr}
    (hitem : item ∈ (parse source).program.items) (hsite : item.HasSite site)
    (hnode : site.Within node) : ReadAmong (goodTokens (lex source)) node :=
  ((itemRead_of_parse hitem).sites site (Item.mem_sites_iff.mpr hsite)).within hnode

end DeclCheck.Parser
