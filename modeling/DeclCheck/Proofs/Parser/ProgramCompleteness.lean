import DeclCheck.Proofs.Parser.Completeness

/-!
# Programs of the grammar are accepted

Statements, blocks and items of the grammar are read as what they are, unless the
nesting budget does not suffice.  A statement can be followed by anything but
`else`, which would go on with it.
-/

namespace DeclCheck.Parser

open Grammar

variable {α : Type}

/-! ## Parts without blocks -/

/-- An expression up to its semicolon, whatever is made of the two. -/
theorem evaluated_accepts {stop : Span} {tokens : List Token} {expr : Expr}
    (hexpr : DerivesEvaluation stop tokens expr) (result : Expr → Span → α)
    (state : ParserState) (rest : List Token) :
    Accepts (do
        let expr ← expression
        let stop ← symbol .semicolon
        return result expr stop)
      (state.moveTo (tokens ++ rest)) (result expr stop) rest := by
  cases hexpr with
  | intro hexpr =>
      rw [List.append_assoc]
      refine Accepts.bind
        (expression_accepts hexpr state (endsExpr_of_mem (.inr (.inr rfl))))
        (fun expr => ?_) (.step (symbol_moveTo state _ _ _) (.of_ok rfl))
      exact reportsGrow_recovering.bind (reportsGrow_recovering.symbol _)
        fun stop => reportsGrow_recovering.pure _

/-- The same where the expression is optional and known to be there. -/
theorem evaluated_some_accepts {stop : Span} {tokens : List Token} {expr : Expr}
    (hexpr : DerivesEvaluation stop tokens expr)
    (result : Option Expr → Span → α) (state : ParserState) (rest : List Token) :
    Accepts (do
        let value ← some <$> expression
        let stop ← symbol .semicolon
        return result value stop)
      (state.moveTo (tokens ++ rest)) (result (some expr) stop) rest := by
  have haccepts := evaluated_accepts hexpr (fun expr => result (some expr)) state rest
  simpa only [map_eq_bind, bind_assoc, pure_bind] using haccepts

theorem variableAfter_accepts {stop : Span} {tokens : List Token}
    {init : Option Expr} (hinit : DerivesInit stop tokens init) (type : TypeName)
    (start : Span) (name : String) (state : ParserState) (rest : List Token) :
    Accepts (variableAfter type start name) (state.moveTo (tokens ++ rest))
      { type := type.spelling, name := name, init := init,
        span := start.cover stop } rest := by
  cases hinit with
  | absent =>
      refine .of_not_at (by simp [nextKind]) (.step (pure_apply _ _) ?_)
      exact .step (symbol_moveTo state _ _ _) (.of_ok rfl)
  | present mark hvalue =>
      refine .of_at rfl (.step (shift_moveTo state _ _) ?_)
      exact evaluated_some_accepts (.intro hvalue)
        (fun init stop =>
          ({ type := type.spelling, name := name, init := init,
             span := start.cover stop } : VariableDecl)) state rest

theorem variableDecl_accepts {tokens : List Token} {decl : VariableDecl}
    (hdecl : DerivesVariable tokens decl) (state : ParserState)
    (rest : List Token) :
    Accepts variableDecl (state.moveTo (tokens ++ rest)) decl rest := by
  cases hdecl with
  | intro start middle stop type name hinit =>
      refine .step (typeName_moveTo state _ _ _) ?_
      refine .step (identifier_moveTo state _ _ _) ?_
      exact variableAfter_accepts hinit type start name state rest

theorem condition_accepts {tokens : List Token} {expr : Expr}
    (hcondition : DerivesCondition tokens expr) (state : ParserState)
    (rest : List Token) :
    Accepts condition (state.moveTo (tokens ++ rest)) expr rest := by
  cases hcondition with
  | intro opening closing hexpr =>
      rw [List.cons_append, List.append_assoc]
      refine .step (symbol_moveTo state _ _ _) ?_
      refine Accepts.bind
        (expression_accepts hexpr state (endsExpr_of_mem (.inl rfl))) ?_ ?_
      · exact fun expr => reportsGrow_recovering.bind
          (reportsGrow_recovering.symbol _) fun closing =>
            reportsGrow_recovering.pure _
      · exact .step (symbol_moveTo state _ _ _) (.of_ok rfl)

theorem nextKind_append_of_head {tokens : List Token} {starts : TokenKind → Bool}
    (hhead : ∃ token rest, tokens = token :: rest ∧ starts token.kind = true)
    (others : List Token) : starts (nextKind (tokens ++ others)) = true := by
  obtain ⟨token, rest, rfl, hstarts⟩ := hhead
  exact hstarts

theorem leaveWith_accepts {start stop : Span} {tokens : List Token} {value : Expr}
    (hvalue : DerivesEvaluation stop tokens value) (state : ParserState)
    (rest : List Token) :
    Accepts leave
      (state.moveTo (⟨.keyword .returnWord, start⟩ :: (tokens ++ rest)))
      (.leave (start.cover stop) (some value)) rest := by
  have hstarts := nextKind_append_of_head hvalue.head rest
  refine .step (shift_moveTo state _ _) (.of_not_at ?_ ?_)
  · intro hkind
    rw [hkind] at hstarts
    exact absurd hstarts (by decide)
  · exact evaluated_some_accepts hvalue
      (fun value stop => Stmt.leave (start.cover stop) value) state rest

/-- A statement that starts as an expression does is one. -/
theorem statement_of_startsExpr {block : Parser Block} {state : ParserState}
    (hstarts : startsExpr state.current.kind = true) :
    statement block state =
      (do
        let (expr, span) ← evaluation
        return Stmt.evaluate span expr : Parser Stmt) state := by
  rw [statement, bind_of_ok _ (peek_apply state)]
  cases hkind : state.current.kind with
  | type name => simp [hkind, startsExpr] at hstarts
  | keyword word =>
      rw [hkind] at hstarts
      cases word with
      | trueWord => rfl
      | falseWord => rfl
      | _ => exact absurd hstarts (by decide)
  | symbol mark =>
      rw [hkind] at hstarts
      cases mark with
      | openBrace => exact absurd hstarts (by decide)
      | _ => rfl
  | _ => rfl

theorem evaluate_accepts {block : Parser Block} {stop : Span}
    {tokens : List Token} {expr : Expr}
    (hexpr : DerivesEvaluation stop tokens expr) (state : ParserState)
    (rest : List Token) :
    Accepts (statement block) (state.moveTo (tokens ++ rest))
      (.evaluate (expr.span.cover stop) expr) rest := by
  rw [Accepts, statement_of_startsExpr (by
    rw [kind_current_moveTo]
    exact nextKind_append_of_head hexpr.head rest)]
  exact Accepts.bind
    (evaluated_accepts hexpr (fun expr stop => (expr, expr.span.cover stop)) state rest)
    (fun evaluated => reportsGrow_recovering.pure _) (.of_ok rfl)

/-! ## Statements and blocks -/

def BlockAccepted (tokens : List Token) (block : Block) : Prop :=
  ∀ levels (state : ParserState) rest,
    Accepts (blockWithin levels) (state.moveTo (tokens ++ rest)) block rest

def StmtAccepted (tokens : List Token) (stmt : Stmt) : Prop :=
  ∀ levels (state : ParserState) rest, nextKind rest ≠ .keyword .elseWord →
    Accepts (statement (blockWithin levels)) (state.moveTo (tokens ++ rest)) stmt
      rest

/-- A loop that recovers from errors never fails: it answers the values and
leaves the given tokens, unless it files that the nesting is too deep. -/
def LoopAccepts (result : α × ParserState) (state : ParserState) (value : α)
    (rest : List Token) : Prop :=
  result = (value, state.moveTo rest) ∨ FilesTooDeep state.reports result.2

def StmtsAccepted (tokens : List Token) (stmts : List Stmt) : Prop :=
  ∀ levels bound (state : ParserState) rest, tokens.length ≤ bound →
    nextKind rest = .symbol .closeBrace →
    LoopAccepts
      (statementsWithin (statement (blockWithin levels)) bound
        (state.moveTo (tokens ++ rest)))
      state stmts rest

/-- The round in which an error is raised files it. -/
theorem recover_accepts {parser : Parser α} {state : ParserState} {value : α}
    {rest : List Token} (haccepts : Accepts parser state value rest) :
    LoopAccepts (recover parser state) state (some value) rest := by
  rcases haccepts with hrun | hoverruns
  · exact .inl (by rw [recover, hrun])
  · refine .inr ?_
    cases hrun : parser state with
    | ok other after =>
        rw [hrun] at hoverruns
        simp only [recover, hrun]
        exact hoverruns
    | error error after =>
        rw [hrun] at hoverruns
        simp only [recover, hrun]
        rcases hoverruns with ⟨hreports, hdeep⟩ | hfiled
        · exact ⟨_, [], by rw [hreports], hdeep⟩
        · exact hfiled.of_reportsGrow (List.prefix_append _ _)

theorem stmtsAccepted_nil : StmtsAccepted [] [] := by
  intro levels bound state rest _ hclose
  cases bound with
  | zero => exact .inl rfl
  | succ bound =>
      have hend : atBlockEnd (state.moveTo rest) = true := by
        simp [atBlockEnd, hclose]
      rw [List.nil_append, statementsWithin, hend]
      exact .inl rfl

theorem nextKind_ne_else {tokens rest : List Token} {stmts : List Stmt}
    (hstmts : DerivesStmts tokens stmts)
    (hclose : nextKind rest = .symbol .closeBrace) :
    nextKind (tokens ++ rest) ≠ .keyword .elseWord := by
  cases hstmts with
  | nil => simp [hclose]
  | cons hstmt hrest =>
      rw [List.append_assoc]
      intro helse
      have hstarts := helse ▸ nextKind_append_of_head hstmt.head _
      exact absurd hstarts (by decide)

theorem stmtsAccepted_cons {tokens rest : List Token} {stmt : Stmt}
    {stmts : List Stmt}
    (hhead : ∃ token rest, tokens = token :: rest ∧ startsStmt token.kind = true)
    (hstmts : DerivesStmts rest stmts) (hstmt : StmtAccepted tokens stmt)
    (hrest : StmtsAccepted rest stmts) :
    StmtsAccepted (tokens ++ rest) (stmt :: stmts) := by
  intro levels bound state others hbound hclose
  rw [List.append_assoc]
  cases bound with
  | zero =>
      obtain ⟨token, more, rfl, _⟩ := hhead
      simp at hbound
  | succ bound =>
      have hend : atBlockEnd (state.moveTo (tokens ++ (rest ++ others))) = false := by
        have hstarts := nextKind_append_of_head hhead (rest ++ others)
        rw [atBlockEnd, kind_current_moveTo]
        cases hkind : nextKind (tokens ++ (rest ++ others)) with
        | symbol mark =>
            rw [hkind] at hstarts
            cases mark <;> first | rfl | exact absurd hstarts (by decide)
        | eof =>
            rw [hkind] at hstarts
            exact absurd hstarts (by decide)
        | _ => rfl
      have hlength : rest.length ≤ bound := by
        obtain ⟨token, more, rfl, _⟩ := hhead
        rw [List.length_append, List.length_cons] at hbound
        omega
      have hround := recover_accepts
        (hstmt levels state (rest ++ others) (nextKind_ne_else hstmts hclose))
      rw [statementsWithin, hend]
      rcases hround with hround | hfiled
      · rw [hround]
        rcases hrest levels bound state others hlength hclose with hloop | hfiled
        · exact .inl (by simp [hloop])
        · exact .inr hfiled
      · exact .inr (hfiled.of_reportsGrow
          (reportsGrow_recoverClosed.statementsWithin
            (reportsGrow_recovering.statement
              (reportsGrow_recovering.blockWithin levels)) bound _))

theorem statements_accepts {statement : Parser Stmt} {state : ParserState}
    {stmts : List Stmt} {rest : List Token}
    (hloop : LoopAccepts (statementsWithin statement state.tokens.length state) state
      stmts rest) :
    Accepts (statements statement) state stmts rest := by
  rw [Accepts, statements]
  rcases hloop with hloop | hfiled
  · exact .inl (by rw [hloop])
  · exact .inr hfiled

theorem blockAccepted_intro (start stop : Span) {tokens : List Token}
    {stmts : List Stmt} (hstmts : StmtsAccepted tokens stmts) :
    BlockAccepted
      (⟨.symbol .openBrace, start⟩ :: (tokens ++ [⟨.symbol .closeBrace, stop⟩]))
      (.mk (start.cover stop) stmts) := by
  intro levels state rest
  cases levels with
  | zero => exact .of_tooDeep rfl
  | succ levels =>
      rw [List.cons_append, List.append_assoc]
      refine Accepts.budgeted .block (.step (symbol_moveTo (state.atDepth _) _ _ _) ?_)
      have hbound : tokens.length ≤
          (tokens ++ ⟨.symbol .closeBrace, stop⟩ :: rest).length := by
        simp
      have hloop := hstmts levels _ (state.atDepth (state.depth + constructCost))
        (⟨.symbol .closeBrace, stop⟩ :: rest) hbound rfl
      refine Accepts.bind (statements_accepts hloop) (fun stmts => ?_)
        (.step (symbol_moveTo (state.atDepth _) _ _ _) (.of_ok rfl))
      exact reportsGrow_recovering.bind (reportsGrow_recovering.symbol _)
        fun stop => reportsGrow_recovering.pure _

/-- A conditional up to its first block; whatever reads the rest of it is
accepted or not as `haccepts` says. -/
theorem conditional_accepts {levels : Nat} (start : Span)
    {testTokens tokens : List Token} {test : Expr} {onTrue : Block}
    (htest : DerivesCondition testTokens test) (htrue : BlockAccepted tokens onTrue)
    {state : ParserState} {middle rest : List Token} {stmt : Stmt}
    (haccepts : Accepts
      (do
        if (← peek).kind = .keyword .elseWord then
          let _ ← shift
          let onFalse ← blockWithin levels
          return Stmt.ifElse (start.cover onFalse.span) test onTrue onFalse
        else return .ifThen (start.cover onTrue.span) test onTrue)
      (state.moveTo middle) stmt rest) :
    Accepts (statement (blockWithin levels))
      (state.moveTo
        (⟨.keyword .ifWord, start⟩ :: (testTokens ++ (tokens ++ middle))))
      stmt rest := by
  have hgrows := reportsGrow_recovering.blockWithin levels
  have hconditional : Accepts (conditional (blockWithin levels))
      (state.moveTo
        (⟨.keyword .ifWord, start⟩ :: (testTokens ++ (tokens ++ middle))))
      stmt rest := by
    refine .step (shift_moveTo state _ _) ?_
    refine Accepts.bind (condition_accepts htest state _) (fun test => ?_) ?_
    · exact reportsGrow_recovering.bind hgrows
        (reportsGrow_recovering.alternative hgrows start test)
    · exact Accepts.bind (htrue levels state middle)
        (reportsGrow_recovering.alternative hgrows start test) haccepts
  exact hconditional

theorem stmtAccepted_ifThen (start : Span) {testTokens tokens : List Token}
    {test : Expr} {body : Block} (htest : DerivesCondition testTokens test)
    (hbody : BlockAccepted tokens body) :
    StmtAccepted (⟨.keyword .ifWord, start⟩ :: (testTokens ++ tokens))
      (.ifThen (start.cover body.span) test body) := by
  intro levels state rest helse
  rw [List.cons_append, List.append_assoc]
  refine conditional_accepts start htest hbody (.step (peek_apply _) ?_)
  rw [kind_current_moveTo, if_neg helse]
  exact .of_ok rfl

theorem stmtAccepted_ifElse (start middle : Span)
    {testTokens trueTokens falseTokens : List Token} {test : Expr}
    {onTrue onFalse : Block} (htest : DerivesCondition testTokens test)
    (htrue : BlockAccepted trueTokens onTrue)
    (hfalse : BlockAccepted falseTokens onFalse) :
    StmtAccepted
      (⟨.keyword .ifWord, start⟩ ::
        (testTokens ++ (trueTokens ++ ⟨.keyword .elseWord, middle⟩ :: falseTokens)))
      (.ifElse (start.cover onFalse.span) test onTrue onFalse) := by
  intro levels state rest _
  rw [List.cons_append, List.append_assoc, List.append_assoc]
  refine conditional_accepts start htest htrue (.step (peek_apply _) ?_)
  rw [kind_current_moveTo, List.cons_append, nextKind, if_pos rfl]
  refine .step (shift_moveTo state _ _) ?_
  exact Accepts.bind (hfalse levels state rest)
    (fun onFalse => reportsGrow_recovering.pure _) (.of_ok rfl)

theorem stmtAccepted_loop (start : Span) {testTokens tokens : List Token}
    {test : Expr} {body : Block} (htest : DerivesCondition testTokens test)
    (hbody : BlockAccepted tokens body) :
    StmtAccepted (⟨.keyword .whileWord, start⟩ :: (testTokens ++ tokens))
      (.loop (start.cover body.span) test body) := by
  intro levels state rest _
  rw [List.cons_append, List.append_assoc]
  have hloop : Accepts (whileLoop (blockWithin levels))
      (state.moveTo
        (⟨.keyword .whileWord, start⟩ :: (testTokens ++ (tokens ++ rest))))
      (.loop (start.cover body.span) test body) rest := by
    refine .step (shift_moveTo state _ _) ?_
    refine Accepts.bind (condition_accepts htest state _) (fun test => ?_) ?_
    · exact reportsGrow_recovering.bind
        (reportsGrow_recovering.blockWithin levels)
        fun body => reportsGrow_recovering.pure _
    · exact Accepts.bind (hbody levels state rest)
        (fun body => reportsGrow_recovering.pure _) (.of_ok rfl)
  exact hloop

theorem stmtAccepted_declare {tokens : List Token} {decl : VariableDecl}
    (hdecl : DerivesVariable tokens decl) :
    StmtAccepted tokens (.declare decl) := by
  intro levels state rest _
  have hrest := Accepts.bind (variableDecl_accepts hdecl state rest)
    (fun decl => reportsGrow_recovering.pure (Stmt.declare decl)) (.of_ok rfl)
  cases hdecl with
  | intro => exact hrest

theorem stmtAccepted_nest {tokens : List Token} {block : Block}
    (hderives : DerivesBlock tokens block) (hblock : BlockAccepted tokens block) :
    StmtAccepted tokens (.nest block) := by
  intro levels state rest _
  have hrest := Accepts.bind (hblock levels state rest)
    (fun block => reportsGrow_recovering.pure (Stmt.nest block)) (.of_ok rfl)
  cases hderives with
  | intro => exact hrest

mutual

theorem stmtAccepted :
    ∀ {tokens : List Token} {stmt : Stmt}, DerivesStmt tokens stmt →
      StmtAccepted tokens stmt
  | _, _, .declare hdecl => stmtAccepted_declare hdecl
  | _, _, .evaluate _ hexpr => fun _ state rest _ => evaluate_accepts hexpr state rest
  | _, _, .ifThen start hcondition hbody =>
      stmtAccepted_ifThen start hcondition (blockAccepted hbody)
  | _, _, .ifElse start middle hcondition htrue hfalse =>
      stmtAccepted_ifElse start middle hcondition (blockAccepted htrue)
        (blockAccepted hfalse)
  | _, _, .loop start hcondition hbody =>
      stmtAccepted_loop start hcondition (blockAccepted hbody)
  | _, _, .leave _ _ => fun _ _ _ _ => .of_ok rfl
  | _, _, .leaveWith _ _ hvalue => fun _ state rest _ =>
      leaveWith_accepts hvalue state rest
  | _, _, .nest hblock => stmtAccepted_nest hblock (blockAccepted hblock)

theorem blockAccepted :
    ∀ {tokens : List Token} {block : Block}, DerivesBlock tokens block →
      BlockAccepted tokens block
  | _, _, .intro start stop hstmts =>
      blockAccepted_intro start stop (stmtsAccepted hstmts)

theorem stmtsAccepted :
    ∀ {tokens : List Token} {stmts : List Stmt}, DerivesStmts tokens stmts →
      StmtsAccepted tokens stmts
  | _, _, .nil => stmtsAccepted_nil
  | _, _, .cons hstmt hrest =>
      stmtsAccepted_cons hstmt.head hrest (stmtAccepted hstmt) (stmtsAccepted hrest)

end

/-! ## Items -/

theorem parameter_elementAccepted {tokens : List Token} {param : Parameter}
    (hparam : DerivesParameter tokens param) :
    ElementAccepted parameter tokens param := by
  intro state others _
  cases hparam with
  | intro start stop type name =>
      refine .step (typeName_moveTo state _ _ _) ?_
      exact .step (identifier_moveTo state _ _ _) (.of_ok rfl)

theorem parameters_commaSeparated {tokens : List Token} {params : List Parameter}
    (hparams : DerivesParameters tokens params) :
    CommaSeparated parameter tokens params := by
  induction hparams with
  | last hparam => exact .last (parameter_elementAccepted hparam)
  | more comma hparam hrest ih => exact .more comma (parameter_elementAccepted hparam) ih

/-- Parameters start with a type, so the parenthesis does not close right
away. -/
theorem nextKind_parameters {tokens : List Token} {params : List Parameter}
    (hparams : DerivesParameters tokens params) (others : List Token) :
    nextKind (tokens ++ others) ≠ .symbol .closeParen := by
  cases hparams with
  | last hparam => cases hparam with | intro => simp [nextKind]
  | more comma hparam hrest => cases hparam with | intro => simp [nextKind]

theorem functionAfter_accepts {paramTokens tokens : List Token}
    {params : Option (List Parameter)} {body : Block}
    (hparams : DerivesParameterList paramTokens params)
    (hbody : DerivesBlock tokens body) (opening closing : Span) (type : TypeName)
    (start : Span) (name : String) (state : ParserState) (rest : List Token) :
    Accepts (functionAfter type start name)
      (state.moveTo (⟨.symbol .openParen, opening⟩ ::
        (paramTokens ++ ⟨.symbol .closeParen, closing⟩ :: (tokens ++ rest))))
      { returnType := type.spelling, name := name, params := params,
        body := some body, span := start.cover body.span } rest := by
  have hblock := blockAccepted hbody (nestingBudget / constructCost) state rest
  -- what follows the parameters does not depend on whether there are any
  have hgrows : ∀ params : Option (List Parameter), Keeps ReportsGrow (do
      let _ ← symbol .closeParen
      let body ← block
      return ({ returnType := type.spelling, name := name, params := params,
                body := some body, span := start.cover body.span } :
        FunctionDecl)) := fun params =>
    reportsGrow_recovering.bind (reportsGrow_recovering.symbol _) fun closing =>
      reportsGrow_recovering.bind reportsGrow_recovering.block fun body =>
        reportsGrow_recovering.pure _
  refine .step (symbol_moveTo state _ _ _) ?_
  cases hparams with
  | absent =>
      refine .of_at rfl (.step (pure_apply _ _) ?_)
      refine .step (symbol_moveTo state _ _ _) ?_
      exact Accepts.bind hblock (fun body => reportsGrow_recovering.pure _)
        (.of_ok rfl)
  | present hparams =>
      refine .of_not_at (nextKind_parameters hparams _) ?_
      refine Accepts.bind (Accepts.map some
        (separatedByCommas_accepts reportsGrow_recovering.parameter
          (parameters_commaSeparated hparams) rfl state)) hgrows ?_
      refine .step (symbol_moveTo state _ _ _) ?_
      exact Accepts.bind hblock (fun body => reportsGrow_recovering.pure _)
        (.of_ok rfl)

theorem global_accepts {stop : Span} {tokens : List Token} {init : Option Expr}
    (hinit : DerivesInit stop tokens init) (type : TypeName) (start middle : Span)
    (name : String) (state : ParserState) (rest : List Token) :
    Accepts declaration
      (state.moveTo (⟨.type type, start⟩ :: ⟨.identifier name, middle⟩ ::
        (tokens ++ rest)))
      (.global { type := type.spelling, name := name, init := init,
                 span := start.cover stop }) rest := by
  refine .step (typeName_moveTo state _ _ _) ?_
  refine .step (identifier_moveTo state _ _ _) (.of_not_at ?_ ?_)
  · cases hinit <;> simp [nextKind]
  · exact Accepts.bind (variableAfter_accepts hinit type start name state rest)
      (fun decl => reportsGrow_recovering.pure (Item.global decl)) (.of_ok rfl)

theorem function_accepts {paramTokens tokens : List Token}
    {params : Option (List Parameter)} {body : Block}
    (hparams : DerivesParameterList paramTokens params)
    (hbody : DerivesBlock tokens body) (opening closing : Span) (type : TypeName)
    (start middle : Span) (name : String) (state : ParserState)
    (rest : List Token) :
    Accepts declaration
      (state.moveTo (⟨.type type, start⟩ :: ⟨.identifier name, middle⟩ ::
        ⟨.symbol .openParen, opening⟩ ::
          (paramTokens ++ ⟨.symbol .closeParen, closing⟩ :: (tokens ++ rest))))
      (.function
        { returnType := type.spelling, name := name, params := params,
          body := some body, span := start.cover body.span }) rest := by
  refine .step (typeName_moveTo state _ _ _) ?_
  refine .step (identifier_moveTo state _ _ _) (.of_at rfl ?_)
  exact Accepts.bind
    (functionAfter_accepts hparams hbody opening closing type start name state rest)
    (fun decl => reportsGrow_recovering.pure (Item.function decl)) (.of_ok rfl)

/-- An item that starts as an expression does is one. -/
theorem item_of_startsExpr {state : ParserState}
    (hstarts : startsExpr state.current.kind = true) :
    item state =
      (do
        let (expr, span) ← evaluation
        return Item.expression span expr : Parser Item) state := by
  rw [item, bind_of_ok _ (peek_apply state)]
  cases hkind : state.current.kind with
  | type name => simp [hkind, startsExpr] at hstarts
  | _ => rfl

theorem item_accepts {tokens : List Token} {read : Item}
    (hitem : DerivesItem tokens read) (state : ParserState) (rest : List Token) :
    Accepts item (state.moveTo (tokens ++ rest)) read rest := by
  cases hitem with
  | global hdecl =>
      cases hdecl with
      | intro start middle stop type name hinit =>
          exact global_accepts hinit type start middle name state rest
  | function start middle opening closing type name hparams hbody =>
      simp only [List.cons_append, List.append_assoc]
      exact function_accepts hparams hbody opening closing type start middle name state
        rest
  | expression stop hexpr =>
      rw [Accepts, item_of_startsExpr (by
        rw [kind_current_moveTo]
        exact nextKind_append_of_head hexpr.head rest)]
      exact Accepts.bind
        (evaluated_accepts hexpr (fun expr stop => (expr, expr.span.cover stop)) state
          rest)
        (fun evaluated => reportsGrow_recovering.pure _) (.of_ok rfl)

theorem itemStep_accepts {tokens : List Token} {read : Item}
    (hitem : DerivesItem tokens read) (state : ParserState) (rest : List Token) :
    LoopAccepts (itemStep (state.moveTo (tokens ++ rest))) state (some read) rest := by
  rw [itemStep]
  rcases recover_accepts (item_accepts hitem state rest) with hround | hfiled
  · exact .inl (by rw [hround]; rfl)
  · refine .inr ?_
    split <;> simp_all [FilesTooDeep]

/-- The tokens of a program are read as the items of the program. -/
theorem itemsWithin_accepts {tokens : List Token} {items : List Item}
    (hitems : DerivesItems tokens items) :
    ∀ {bound : Nat}, tokens.length ≤ bound → ∀ state : ParserState,
      LoopAccepts (itemsWithin bound (state.moveTo tokens)) state items [] := by
  induction hitems with
  | nil =>
      intro bound _ state
      cases bound with
      | zero => exact .inl rfl
      | succ bound => exact .inl rfl
  | cons hitem hrest ih =>
      rename_i itemTokens rest read items
      intro bound hbound state
      have hstarts := nextKind_append_of_head hitem.head rest
      have hlength : 0 < itemTokens.length := by
        obtain ⟨token, more, rfl, _⟩ := hitem.head
        exact Nat.succ_pos _
      rw [List.length_append] at hbound
      cases bound with
      | zero => omega
      | succ bound =>
          have heof : ¬ (state.moveTo (itemTokens ++ rest)).current.kind = .eof := by
            intro heof
            rw [← kind_current_moveTo state, heof] at hstarts
            exact absurd hstarts (by decide)
          rw [itemsWithin, if_neg heof]
          rcases itemStep_accepts hitem state rest with hround | hfiled
          · have hbound : rest.length ≤ bound := by omega
            rw [hround]
            rcases ih hbound state with hloop | hfiled
            · exact .inl (by simp [hloop])
            · exact .inr hfiled
          · exact .inr (hfiled.of_reportsGrow
              (reportsGrow_recoverClosed.itemsWithin bound _))

end DeclCheck.Parser
