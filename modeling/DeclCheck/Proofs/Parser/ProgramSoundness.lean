import DeclCheck.Proofs.Grammar.FirstToken
import DeclCheck.Proofs.Parser.Soundness

/-!
# What a successful run over statements has read

The parsers of blocks recover from errors inside them, so their success alone
says little.  If a run files no error, though, then no part of it did, and what
it read is a phrase of the grammar.
-/

namespace DeclCheck.Parser

open Grammar

variable {α : Type}

/-- If nothing was filed over the whole way, nothing was filed on either part. -/
theorem ReportsGrow.eq_of_eq {before middle after : ParserState}
    (hfirst : ReportsGrow before middle) (hsecond : ReportsGrow middle after)
    (heq : after.reports = before.reports) :
    middle.reports = before.reports ∧ after.reports = middle.reports := by
  have hlength : middle.reports.length ≤ before.reports.length :=
    heq ▸ List.IsPrefix.length_le hsecond
  have hmiddle := List.IsPrefix.eq_of_length_le hfirst hlength
  exact ⟨hmiddle.symm, heq.trans hmiddle⟩

theorem Consumes.reportsGrow_of {tokens : List Token}
    {before middle after : ParserState} (hconsumed : Consumes tokens before middle)
    (hgrows : ReportsGrow middle after) : ReportsGrow before after := by
  rwa [ReportsGrow, ← hconsumed.reports_eq]

/-- A parser reads phrases as long as no error is filed. -/
def ReadsCleanly (parser : Parser α) (derives : List Token → α → Prop) : Prop :=
  ∀ ⦃state after : ParserState⦄ ⦃value : α⦄, parser state = .ok value after →
    after.reports = state.reports →
    ∃ tokens, Consumes tokens state after ∧ derives tokens value

/-! ## Parts without blocks -/

/-- What follows the type and the name makes them a declaration. -/
theorem variableAfter_consumes {type : TypeName} {start : Span} {name : String}
    {state after : ParserState} {decl : VariableDecl}
    (hrun : variableAfter type start name state = .ok decl after) :
    ∃ tokens, Consumes tokens state after ∧ ∀ middle,
      DerivesVariable
        (⟨.type type, start⟩ :: ⟨.identifier name, middle⟩ :: tokens) decl := by
  rw [variableAfter, bind_of_ok _ (at?_apply _ state)] at hrun
  by_cases hassign : state.current.kind = .symbol .assign
  · simp only [hassign, decide_true, if_true, bind_eq_ok_iff, map_eq_bind] at hrun
    obtain ⟨mark, afterMark, hshift, init, afterInit, ⟨value, _, hvalue, hsome⟩, stop,
      _, hstop, hpure⟩ := hrun
    cases hsome
    cases hpure
    have hmark := shift_consumes hassign (by simp) hshift
    obtain ⟨tokens, hconsumed, hderives⟩ := expression_reads hvalue
    exact ⟨_, hmark.trans (hconsumed.trans (symbol_consumes hstop)), fun middle =>
      .intro start middle stop type name (.present mark.span hderives)⟩
  · simp only [hassign, decide_false, Bool.false_eq_true, if_false,
      bind_eq_ok_iff] at hrun
    obtain ⟨_, _, hnone, stop, _, hstop, hpure⟩ := hrun
    cases hnone
    cases hpure
    exact ⟨_, symbol_consumes hstop, fun middle =>
      .intro start middle stop type name .absent⟩

theorem variableDecl_reads : Reads variableDecl DerivesVariable := by
  intro state after decl hrun
  simp only [variableDecl, bind_eq_ok_iff] at hrun
  obtain ⟨⟨type, start⟩, _, htype, ⟨name, middle⟩, _, hname, hrest⟩ := hrun
  obtain ⟨tokens, hconsumed, hderives⟩ := variableAfter_consumes hrest
  exact ⟨_, (typeName_consumes htype).trans
    ((identifier_consumes hname).trans hconsumed), hderives middle⟩

theorem condition_reads : Reads condition DerivesCondition := by
  intro state after expr hrun
  simp only [condition, bind_eq_ok_iff] at hrun
  obtain ⟨opening, _, hopening, inner, _, hinner, closing, _, hclosing, hpure⟩ := hrun
  cases hpure
  obtain ⟨tokens, hconsumed, hderives⟩ := expression_reads hinner
  exact ⟨_, (symbol_consumes hopening).trans
    (hconsumed.trans (symbol_consumes hclosing)), .intro opening closing hderives⟩

theorem evaluation_reads :
    Reads evaluation fun tokens evaluated =>
      ∃ stop, DerivesEvaluation stop tokens evaluated.1 ∧
        evaluated.2 = evaluated.1.span.cover stop := by
  intro state after evaluated hrun
  simp only [evaluation, bind_eq_ok_iff] at hrun
  obtain ⟨expr, _, hexpr, stop, _, hstop, hpure⟩ := hrun
  cases hpure
  obtain ⟨tokens, hconsumed, hderives⟩ := expression_reads hexpr
  exact ⟨_, hconsumed.trans (symbol_consumes hstop), stop, .intro hderives, rfl⟩

theorem parameter_reads : Reads parameter DerivesParameter := by
  intro state after param hrun
  simp only [parameter, bind_eq_ok_iff] at hrun
  obtain ⟨⟨type, start⟩, _, htype, ⟨name, stop⟩, _, hname, hpure⟩ := hrun
  cases hpure
  exact ⟨_, (typeName_consumes htype).trans (identifier_consumes hname),
    .intro start stop type name⟩

/-! ## Statements -/

/-- How a statement that was read is put together.  What holds no block is a phrase of
the grammar; of a block it is said between which states it was read. -/
inductive StatementRun (block : Parser Block) (state after : ParserState) : Stmt → Prop
  | declare {tokens : List Token} {decl : VariableDecl}
      (hconsumed : Consumes tokens state after) (hdecl : DerivesVariable tokens decl) :
      StatementRun block state after (.declare decl)
  | evaluate {stop : Span} {tokens : List Token} {expr : Expr}
      (hconsumed : Consumes tokens state after)
      (hexpr : DerivesEvaluation stop tokens expr) :
      StatementRun block state after (.evaluate (expr.span.cover stop) expr)
  | ifThen {start : Span} {tokens : List Token} {condition : Expr} {body : Block}
      {middle : ParserState}
      (hconsumed : Consumes (⟨.keyword .ifWord, start⟩ :: tokens) state middle)
      (hcondition : DerivesCondition tokens condition)
      (hbody : block middle = .ok body after) :
      StatementRun block state after (.ifThen (start.cover body.span) condition body)
  | ifElse {start mark : Span} {tokens : List Token} {condition : Expr}
      {onTrue onFalse : Block} {middle afterTrue afterMark : ParserState}
      (hconsumed : Consumes (⟨.keyword .ifWord, start⟩ :: tokens) state middle)
      (hcondition : DerivesCondition tokens condition)
      (htrue : block middle = .ok onTrue afterTrue)
      (hmark : Consumes [⟨.keyword .elseWord, mark⟩] afterTrue afterMark)
      (hfalse : block afterMark = .ok onFalse after) :
      StatementRun block state after
        (.ifElse (start.cover onFalse.span) condition onTrue onFalse)
  | loop {start : Span} {tokens : List Token} {condition : Expr} {body : Block}
      {middle : ParserState}
      (hconsumed : Consumes (⟨.keyword .whileWord, start⟩ :: tokens) state middle)
      (hcondition : DerivesCondition tokens condition)
      (hbody : block middle = .ok body after) :
      StatementRun block state after (.loop (start.cover body.span) condition body)
  | leave {start stop : Span}
      (hconsumed : Consumes [⟨.keyword .returnWord, start⟩, ⟨.symbol .semicolon, stop⟩]
        state after) :
      StatementRun block state after (.leave (start.cover stop) none)
  | leaveWith {start stop : Span} {tokens : List Token} {value : Expr}
      (hconsumed : Consumes (⟨.keyword .returnWord, start⟩ :: tokens) state after)
      (hvalue : DerivesEvaluation stop tokens value) :
      StatementRun block state after (.leave (start.cover stop) (some value))
  | nest {inner : Block} (hblock : block state = .ok inner after) :
      StatementRun block state after (.nest inner)

section Statements

variable {block : Parser Block} {state after : ParserState} {stmt : Stmt}

theorem leave_run (hkind : state.current.kind = .keyword .returnWord)
    (hrun : leave state = .ok stmt after) : StatementRun block state after stmt := by
  simp only [leave, bind_eq_ok_iff] at hrun
  obtain ⟨start, afterStart, hshift, found, _, hfound, hrun⟩ := hrun
  cases hfound
  have hstart := shift_consumes hkind (by simp) hshift
  by_cases hsemicolon : afterStart.current.kind = .symbol .semicolon
  · simp only [hsemicolon, decide_true, if_true, bind_eq_ok_iff] at hrun
    obtain ⟨_, _, hnone, stop, _, hstop, hpure⟩ := hrun
    cases hnone
    cases hpure
    exact .leave (hstart.trans (symbol_consumes hstop))
  · simp only [hsemicolon, decide_false, Bool.false_eq_true, if_false,
      bind_eq_ok_iff, map_eq_bind] at hrun
    obtain ⟨_, _, ⟨value, _, hvalue, hsome⟩, stop, _, hstop, hpure⟩ := hrun
    cases hsome
    cases hpure
    obtain ⟨tokens, hconsumed, hderives⟩ := expression_reads hvalue
    exact .leaveWith (hstart.trans (hconsumed.trans (symbol_consumes hstop)))
      (.intro hderives)

theorem conditional_run (hkind : state.current.kind = .keyword .ifWord)
    (hrun : conditional block state = .ok stmt after) :
    StatementRun block state after stmt := by
  simp only [conditional, bind_eq_ok_iff] at hrun
  obtain ⟨start, afterStart, hshift, test, afterTest, htest, onTrue, afterTrue, htrue,
    _, _, hpeek, hrun⟩ := hrun
  cases hpeek
  have hstart := shift_consumes hkind (by simp) hshift
  obtain ⟨testTokens, hconsumed, hderives⟩ := condition_reads htest
  by_cases helse : afterTrue.current.kind = .keyword .elseWord
  · simp only [helse, if_true, bind_eq_ok_iff] at hrun
    obtain ⟨mark, afterMark, hmark, onFalse, _, hfalse, hpure⟩ := hrun
    cases hpure
    exact .ifElse (hstart.trans hconsumed) hderives htrue
      (shift_consumes helse (by simp) hmark) hfalse
  · simp only [helse, if_false] at hrun
    cases hrun
    exact .ifThen (hstart.trans hconsumed) hderives htrue

theorem whileLoop_run (hkind : state.current.kind = .keyword .whileWord)
    (hrun : whileLoop block state = .ok stmt after) :
    StatementRun block state after stmt := by
  simp only [whileLoop, bind_eq_ok_iff] at hrun
  obtain ⟨start, _, hshift, test, _, htest, body, _, hbody, hpure⟩ := hrun
  cases hpure
  have hstart := shift_consumes hkind (by simp) hshift
  obtain ⟨testTokens, hconsumed, hderives⟩ := condition_reads htest
  exact .loop (hstart.trans hconsumed) hderives hbody

theorem statement_run (hrun : statement block state = .ok stmt after) :
    StatementRun block state after stmt := by
  have hevaluate : (evaluation >>= fun read =>
      pure (Stmt.evaluate read.2 read.1) : Parser Stmt) state = .ok stmt after →
      StatementRun block state after stmt := by
    intro hevaluate
    obtain ⟨⟨expr, span⟩, _, hevaluated, hpure⟩ := bind_eq_ok_iff.mp hevaluate
    cases hpure
    obtain ⟨tokens, hconsumed, stop, hderives, hspan⟩ := evaluation_reads hevaluated
    rw [show span = expr.span.cover stop from hspan]
    exact .evaluate hconsumed hderives
  rw [statement, bind_of_ok _ (peek_apply state)] at hrun
  cases hkind : state.current.kind with
  | type name =>
      simp only [hkind] at hrun
      obtain ⟨decl, _, hdecl, hpure⟩ := bind_eq_ok_iff.mp hrun
      cases hpure
      obtain ⟨tokens, hconsumed, hderives⟩ := variableDecl_reads hdecl
      exact .declare hconsumed hderives
  | keyword word =>
      cases word with
      | ifWord =>
          simp only [hkind] at hrun
          exact conditional_run hkind hrun
      | whileWord =>
          simp only [hkind] at hrun
          exact whileLoop_run hkind hrun
      | returnWord =>
          simp only [hkind] at hrun
          exact leave_run hkind hrun
      | _ =>
          simp only [hkind] at hrun
          exact hevaluate hrun
  | symbol mark =>
      cases mark with
      | openBrace =>
          simp only [hkind] at hrun
          obtain ⟨inner, _, hinner, hpure⟩ := bind_eq_ok_iff.mp hrun
          cases hpure
          exact .nest hinner
      | _ =>
          simp only [hkind] at hrun
          exact hevaluate hrun
  | _ =>
      simp only [hkind] at hrun
      exact hevaluate hrun

theorem statement_readsCleanly (hgrows : Keeps ReportsGrow block)
    (hblock : ReadsCleanly block DerivesBlock) :
    ReadsCleanly (statement block) DerivesStmt := by
  intro state after stmt hrun hclean
  cases statement_run hrun with
  | declare hconsumed hdecl => exact ⟨_, hconsumed, .declare hdecl⟩
  | evaluate hconsumed hexpr => exact ⟨_, hconsumed, .evaluate _ hexpr⟩
  | leave hconsumed => exact ⟨_, hconsumed, .leave _ _⟩
  | leaveWith hconsumed hvalue => exact ⟨_, hconsumed, .leaveWith _ _ hvalue⟩
  | nest hinner =>
      obtain ⟨tokens, hread, hderives⟩ := hblock hinner hclean
      exact ⟨tokens, hread, .nest hderives⟩
  | ifThen hconsumed hcondition hbody =>
      obtain ⟨tokens, hread, hderives⟩ :=
        hblock hbody (hclean.trans hconsumed.reports_eq.symm)
      exact ⟨_, hconsumed.trans hread, .ifThen _ hcondition hderives⟩
  | loop hconsumed hcondition hbody =>
      obtain ⟨tokens, hread, hderives⟩ :=
        hblock hbody (hclean.trans hconsumed.reports_eq.symm)
      exact ⟨_, hconsumed.trans hread, .loop _ hcondition hderives⟩
  | ifElse hconsumed hcondition htrue hmark hfalse =>
      -- nothing was filed up to the end, hence nothing by either block
      have hparts := (hgrows.of_ok htrue).eq_of_eq
        (hmark.reportsGrow_of (hgrows.of_ok hfalse))
        (hclean.trans hconsumed.reports_eq.symm)
      obtain ⟨trueTokens, htrueRead, htrueDerives⟩ := hblock htrue hparts.1
      obtain ⟨falseTokens, hfalseRead, hfalseDerives⟩ :=
        hblock hfalse (hparts.2.trans hmark.reports_eq.symm)
      exact ⟨_, hconsumed.trans (htrueRead.trans (hmark.trans hfalseRead)),
        .ifElse _ _ hcondition htrueDerives hfalseDerives⟩

end Statements

/-! ## Blocks -/

/-- A round in which nothing is filed has read a phrase. -/
theorem recover_of_clean {parser : Parser α} {derives : List Token → α → Prop}
    (hgrows : Keeps ReportsGrow parser) (hparser : ReadsCleanly parser derives)
    {state : ParserState}
    (hclean : (recover parser state).2.reports = state.reports) :
    ∃ value tokens, (recover parser state).1 = some value ∧
      Consumes tokens state (recover parser state).2 ∧ derives tokens value := by
  cases hrun : parser state with
  | ok value after =>
      simp only [recover, hrun] at hclean ⊢
      obtain ⟨tokens, hconsumed, hderives⟩ := hparser hrun hclean
      exact ⟨value, tokens, rfl, hconsumed, hderives⟩
  | error error after =>
      have hprefix := hgrows state
      rw [finalState_of_error hrun] at hprefix
      have hlength := List.IsPrefix.length_le hprefix
      simp only [recover, hrun] at hclean
      rw [← hclean, List.length_append, List.length_singleton] at hlength
      omega

theorem statementsWithin_of_clean {statement : Parser Stmt}
    (hgrows : Keeps ReportsGrow statement)
    (hstatement : ReadsCleanly statement DerivesStmt) (bound : Nat) :
    ∀ {state : ParserState},
      (statementsWithin statement bound state).2.reports = state.reports →
      ∃ tokens, Consumes tokens state (statementsWithin statement bound state).2 ∧
        DerivesStmts tokens (statementsWithin statement bound state).1 := by
  induction bound with
  | zero => exact fun _ => ⟨[], Consumes.refl _, .nil⟩
  | succ bound ih =>
      intro state hclean
      rw [statementsWithin] at hclean ⊢
      by_cases hend : atBlockEnd state = true
      · simp only [hend, if_true]
        exact ⟨[], Consumes.refl state, .nil⟩
      · simp only [hend, Bool.false_eq_true, if_false] at hclean ⊢
        have hparts := ReportsGrow.eq_of_eq
          (reportsGrow_recoverClosed.recover hgrows state)
          (reportsGrow_recoverClosed.statementsWithin hgrows bound _) hclean
        obtain ⟨stmt, tokens, hread, hconsumed, hderives⟩ :=
          recover_of_clean hgrows hstatement hparts.1
        obtain ⟨rest, hrestConsumed, hrestDerives⟩ := ih hparts.2
        rw [hread]
        exact ⟨_, hconsumed.trans hrestConsumed, .cons hderives hrestDerives⟩

/-- A block that was read is what was read between its braces. -/
theorem braced_run {statement : Parser Stmt} {state after : ParserState} {block : Block}
    (hrun : braced statement state = .ok block after) :
    ∃ start stop inner,
      Consumes [⟨.symbol .openBrace, start⟩] state inner ∧
      Consumes [⟨.symbol .closeBrace, stop⟩]
        (statementsWithin statement inner.tokens.length inner).2 after ∧
      block = .mk (start.cover stop)
        (statementsWithin statement inner.tokens.length inner).1 := by
  simp only [braced, bind_eq_ok_iff] at hrun
  obtain ⟨start, inner, hstart, stmts, _, hstmts, stop, _, hstop, hpure⟩ := hrun
  cases hpure
  cases hstmts
  exact ⟨start, stop, inner, symbol_consumes hstart, symbol_consumes hstop, rfl⟩

theorem braced_readsCleanly {statement : Parser Stmt}
    (hgrows : Keeps ReportsGrow statement)
    (hstatement : ReadsCleanly statement DerivesStmt) :
    ReadsCleanly (braced statement) DerivesBlock := by
  intro state after block hrun hclean
  obtain ⟨start, stop, inner, hstart, hstop, rfl⟩ := braced_run hrun
  obtain ⟨tokens, hconsumed, hderives⟩ := statementsWithin_of_clean hgrows hstatement
    inner.tokens.length
    (hstop.reports_eq.symm.trans (hclean.trans hstart.reports_eq.symm))
  exact ⟨_, hstart.trans (hconsumed.trans hstop), .intro start stop hderives⟩

theorem budgeted_readsCleanly {cost : Nat} {construct : Construct}
    {parser : Parser α} {derives : List Token → α → Prop}
    (hparser : ReadsCleanly parser derives) :
    ReadsCleanly (budgeted cost construct parser) derives := by
  intro state after value hrun hclean
  obtain ⟨reached, hinner, rfl⟩ := budgeted_eq_ok hrun
  obtain ⟨tokens, hconsumed, hderives⟩ := hparser hinner hclean
  exact ⟨tokens, ⟨⟨hconsumed.tokens_eq, hconsumed.endSpan_eq,
    hconsumed.reports_eq⟩, rfl⟩, hderives⟩

theorem blockWithin_readsCleanly (levels : Nat) :
    ReadsCleanly (blockWithin levels) DerivesBlock := by
  induction levels with
  | zero =>
      intro state after block hrun
      cases hrun
  | succ levels ih =>
      have hgrows := reportsGrow_recovering.blockWithin levels
      exact budgeted_readsCleanly (braced_readsCleanly
        (reportsGrow_recovering.statement hgrows)
        (statement_readsCleanly hgrows ih))

theorem block_readsCleanly : ReadsCleanly block DerivesBlock :=
  blockWithin_readsCleanly _

/-! ## Items -/

/-- How an item that was read is put together. -/
inductive ItemRun (state after : ParserState) : Item → Prop
  | global {tokens : List Token} {decl : VariableDecl}
      (hconsumed : Consumes tokens state after) (hdecl : DerivesVariable tokens decl) :
      ItemRun state after (.global decl)
  | function {start name opening closing : Span} {type : TypeName} {text : String}
      {tokens : List Token} {params : Option (List Parameter)} {body : Block}
      {middle : ParserState}
      (hconsumed : Consumes
        (⟨.type type, start⟩ :: ⟨.identifier text, name⟩ ::
          ⟨.symbol .openParen, opening⟩ :: (tokens ++ [⟨.symbol .closeParen, closing⟩]))
        state middle)
      (hparams : DerivesParameterList tokens params)
      (hbody : block middle = .ok body after) :
      ItemRun state after
        (.function
          { returnType := type.spelling, name := text, params := params,
            body := some body, span := start.cover body.span })
  | expression {stop : Span} {tokens : List Token} {expr : Expr}
      (hconsumed : Consumes tokens state after)
      (hexpr : DerivesEvaluation stop tokens expr) :
      ItemRun state after (.expression (expr.span.cover stop) expr)

/-- What follows the type and the name of a function, up to its body. -/
theorem functionAfter_run {type : TypeName} {start : Span} {name : String}
    {state after : ParserState} {decl : FunctionDecl}
    (hrun : functionAfter type start name state = .ok decl after) :
    ∃ opening tokens closing middle params body,
      Consumes (⟨.symbol .openParen, opening⟩ :: (tokens ++ [⟨.symbol .closeParen, closing⟩]))
        state middle ∧
      DerivesParameterList tokens params ∧ block middle = .ok body after ∧
      decl = { returnType := type.spelling, name := name, params := params,
               body := some body, span := start.cover body.span } := by
  simp only [functionAfter, bind_eq_ok_iff] at hrun
  obtain ⟨opening, afterOpening, hopening, _, _, hfound, hrun⟩ := hrun
  cases hfound
  have hopen := symbol_consumes hopening
  by_cases hclose : afterOpening.current.kind = .symbol .closeParen
  · simp only [hclose, decide_true, if_true, bind_eq_ok_iff] at hrun
    obtain ⟨_, _, hnone, closing, middle, hclosing, body, _, hbody, hpure⟩ := hrun
    cases hnone
    cases hpure
    exact ⟨opening, [], closing, middle, none, body, hopen.trans (symbol_consumes hclosing),
      .absent, hbody, rfl⟩
  · simp only [hclose, decide_false, Bool.false_eq_true, if_false, map_eq_bind,
      bind_eq_ok_iff] at hrun
    obtain ⟨_, _, ⟨params, _, hparams, hsome⟩, closing, middle, hclosing, body, _, hbody,
      hpure⟩ := hrun
    cases hsome
    cases hpure
    obtain ⟨tokens, hconsumed, hderives⟩ := separatedByCommas_reads parameter_reads
      DerivesParameters.last DerivesParameters.more hparams
    exact ⟨opening, tokens, closing, middle, some params, body,
      hopen.trans (hconsumed.trans (symbol_consumes hclosing)), .present hderives, hbody, rfl⟩

theorem declaration_run {state after : ParserState} {item : Item}
    (hrun : declaration state = .ok item after) : ItemRun state after item := by
  simp only [declaration, bind_eq_ok_iff] at hrun
  obtain ⟨⟨type, start⟩, _, htype, ⟨name, middle⟩, afterName, hname, _, _, hfound, hrun⟩ :=
    hrun
  cases hfound
  have hhead := (typeName_consumes htype).trans (identifier_consumes hname)
  by_cases hopen : afterName.current.kind = .symbol .openParen
  · simp only [hopen, decide_true, if_true, bind_eq_ok_iff] at hrun
    obtain ⟨decl, _, hdecl, hpure⟩ := hrun
    cases hpure
    obtain ⟨opening, tokens, closing, _, params, body, hconsumed, hparams, hbody, rfl⟩ :=
      functionAfter_run hdecl
    exact .function (hhead.trans hconsumed) hparams hbody
  · simp only [hopen, decide_false, Bool.false_eq_true, if_false,
      bind_eq_ok_iff] at hrun
    obtain ⟨decl, _, hdecl, hpure⟩ := hrun
    cases hpure
    obtain ⟨tokens, hconsumed, hderives⟩ := variableAfter_consumes hdecl
    exact .global (hhead.trans hconsumed) (hderives middle)

theorem item_run {state after : ParserState} {read : Item}
    (hrun : item state = .ok read after) : ItemRun state after read := by
  rw [Parser.item, bind_of_ok _ (peek_apply state)] at hrun
  cases hkind : state.current.kind with
  | type name =>
      simp only [hkind] at hrun
      exact declaration_run hrun
  | _ =>
      simp only [hkind] at hrun
      obtain ⟨⟨expr, span⟩, _, hevaluated, hpure⟩ := bind_eq_ok_iff.mp hrun
      cases hpure
      obtain ⟨tokens, hconsumed, stop, hderives, hspan⟩ := evaluation_reads hevaluated
      rw [show span = expr.span.cover stop from hspan]
      exact .expression hconsumed hderives

theorem item_readsCleanly : ReadsCleanly item DerivesItem := by
  intro state after read hrun hclean
  cases item_run hrun with
  | global hconsumed hdecl => exact ⟨_, hconsumed, .global hdecl⟩
  | expression hconsumed hexpr => exact ⟨_, hconsumed, .expression _ hexpr⟩
  | function hconsumed hparams hbody =>
      obtain ⟨tokens, hread, hderives⟩ :=
        block_readsCleanly hbody (hclean.trans hconsumed.reports_eq.symm)
      have hall := hconsumed.trans hread
      simp only [List.cons_append, List.append_assoc] at hall
      exact ⟨_, hall, .function _ _ _ _ _ _ hparams hderives⟩

theorem itemStep_of_ok {state after : ParserState} {read : Item}
    (hrun : item state = .ok read after) : itemStep state = (some read, after) := by
  rw [itemStep, recover, hrun]

/-- A round that files nothing does not fail. -/
theorem item_of_itemStep_clean {state : ParserState}
    (hclean : (itemStep state).2.reports = state.reports) :
    ∃ read after, item state = .ok read after := by
  cases hrun : item state with
  | ok read after => exact ⟨read, after, rfl⟩
  | error error after =>
      have hprefix := reportsGrow_recovering.item state
      rw [finalState_of_error hrun] at hprefix
      have hlength := List.IsPrefix.length_le hprefix
      rw [itemStep, recover, hrun] at hclean
      simp only at hclean
      rw [← hclean, List.length_append, List.length_singleton] at hlength
      omega

/-- A round that files nothing reads an item. -/
theorem itemStep_of_clean {state : ParserState}
    (hclean : (itemStep state).2.reports = state.reports) :
    ∃ item tokens, (itemStep state).1 = some item ∧
      Consumes tokens state (itemStep state).2 ∧ DerivesItem tokens item := by
  obtain ⟨read, after, hrun⟩ := item_of_itemStep_clean hclean
  rw [itemStep_of_ok hrun] at hclean ⊢
  obtain ⟨tokens, hconsumed, hderives⟩ := item_readsCleanly hrun hclean
  exact ⟨read, tokens, rfl, hconsumed, hderives⟩

/-- If nothing is filed while the items are read, and the rounds do not run out
before the tokens, then all tokens are those of the items. -/
theorem itemsWithin_of_clean (bound : Nat) :
    ∀ state : ParserState, state.tokens.length ≤ bound →
      (∀ token ∈ state.tokens, token.kind ≠ .eof) →
      (itemsWithin bound state).2.reports = state.reports →
      DerivesItems state.tokens (itemsWithin bound state).1 := by
  induction bound with
  | zero =>
      intro state hbound _ _
      rw [List.length_eq_zero_iff.mp (Nat.le_zero.mp hbound)]
      exact .nil
  | succ bound ih =>
      intro state hbound hnoEof hclean
      rw [itemsWithin] at hclean ⊢
      by_cases heof : state.current.kind = .eof
      · simp only [heof, if_true]
        cases htokens : state.tokens with
        | nil => exact .nil
        | cons token rest =>
            simp only [ParserState.current, htokens] at heof
            exact absurd heof (hnoEof token (by simp [htokens]))
      · simp only [heof, if_false] at hclean ⊢
        have hparts := ReportsGrow.eq_of_eq (reportsGrow_recoverClosed.itemStep state)
          (reportsGrow_recoverClosed.itemsWithin bound _) hclean
        obtain ⟨item, tokens, hread, hconsumed, hderives⟩ := itemStep_of_clean hparts.1
        have hlength := congrArg List.length hconsumed.tokens_eq
        obtain ⟨first, others, rfl, _⟩ := hderives.head
        rw [List.length_append, List.length_cons] at hlength
        have hrest := ih _ (by omega) (fun token hmem => hnoEof token (by
          rw [hconsumed.tokens_eq]
          exact List.mem_append_right _ hmem)) hparts.2
        rw [hread, hconsumed.tokens_eq]
        exact .cons hderives hrest

end DeclCheck.Parser
