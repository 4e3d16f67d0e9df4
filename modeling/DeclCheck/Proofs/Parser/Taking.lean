import DeclCheck.Proofs.Parser.Soundness

/-!
# Which tokens a parser takes

Every parser looks at a token before it takes it.  Reading an expression therefore takes
nothing but tokens that can stand in an expression, even if it fails: in particular it
never takes a semicolon, a brace or the name of a type.
-/

namespace DeclCheck.Parser

variable {α β : Type}

/-- Relations that survive the taking of a token of certain kinds. -/
structure TakeClosed (taken : TokenKind → Bool) (kept : ParserState → ParserState → Prop) :
    Prop extends RunClosed kept where
  take : ∀ state, taken state.current.kind = true →
    kept state { state with tokens := state.tokens.tail }

/-- A choice by the next symbol, which is left where it is. -/
theorem RunClosed.ifAt {kept : ParserState → ParserState → Prop} (hkept : RunClosed kept)
    (mark : Symbol) {there otherwise : Parser α} (hthere : Keeps kept there)
    (hotherwise : Keeps kept otherwise) :
    Keeps kept (do if ← at? mark then there else otherwise) := by
  have hat : Keeps kept (at? mark) := hkept.refl
  apply hkept.bind hat
  intro found
  cases found with
  | true => exact hthere
  | false => exact hotherwise

namespace TakeClosed

variable {taken : TokenKind → Bool} {kept : ParserState → ParserState → Prop}
variable (hkept : TakeClosed taken kept)
include hkept

theorem shift_run {state : ParserState} {next : Token → Parser β}
    (htoken : taken state.current.kind = true) (hnext : ∀ token, Keeps kept (next token)) :
    kept state (finalState (shift >>= next) state) :=
  hkept.bind_run (hkept.take state htoken) hnext

/-- A symbol is taken after it was found. -/
theorem takeIfAt {mark : Symbol} (hmark : taken (.symbol mark) = true) {next : Token → Parser α}
    {otherwise : Parser α} (hnext : ∀ token, Keeps kept (next token))
    (hotherwise : Keeps kept otherwise) :
    Keeps kept (do if ← at? mark then shift >>= next else otherwise) := by
  intro state
  rw [finalState, bind_of_ok _ (at?_apply mark state)]
  by_cases hat : state.current.kind = .symbol mark
  · simp only [hat, decide_true, if_true]
    exact hkept.shift_run (hat ▸ hmark) hnext
  · simp only [hat, decide_false]
    exact hotherwise state

theorem symbol {mark : Symbol} (hmark : taken (.symbol mark) = true) :
    Keeps kept (symbol mark) :=
  hkept.takeIfAt hmark (fun _ => hkept.pure _) hkept.refl

theorem identifier (hname : ∀ name, taken (.identifier name) = true) :
    Keeps kept identifier := by
  intro state
  rw [finalState, identifier_apply]
  cases hkind : state.current.kind with
  | identifier name => exact hkept.take state (hkind ▸ hname name)
  | _ => exact hkept.refl state

theorem typeName (htype : ∀ type, taken (.type type) = true) : Keeps kept typeName := by
  intro state
  rw [finalState, typeName_apply]
  cases hkind : state.current.kind with
  | type name => exact hkept.take state (hkind ▸ htype name)
  | _ => exact hkept.refl state

theorem separatedByCommas (hcomma : taken (.symbol .comma) = true) {element : Parser α}
    (helement : Keeps kept element) : Keeps kept (separatedByCommas element) := by
  refine hkept.commas helement fun bound => ?_
  induction bound with
  | zero => exact hkept.pure []
  | succ bound ih =>
      refine hkept.takeIfAt hcomma (fun _ => ?_) (hkept.pure [])
      exact hkept.bind helement fun next => hkept.bind ih fun rest => hkept.pure _

end TakeClosed

/-! ## Expressions -/

/-- The kinds of tokens that can stand in an expression. -/
def inExpression : TokenKind → Bool
  | .integer _ => true
  | .float _ => true
  | .string _ => true
  | .identifier _ => true
  | .keyword word => word = .trueWord || word = .falseWord
  | .symbol mark => mark ≠ .semicolon && mark ≠ .openBrace && mark ≠ .closeBrace
  | _ => false

/-- Between the states nothing was taken but tokens that can stand in an expression, and
nothing was filed. -/
def Takes (before after : ParserState) : Prop :=
  ∃ tokens, Passes tokens before after ∧ ∀ token ∈ tokens, inExpression token.kind = true

theorem takes_depthClosed : DepthClosed Takes where
  refl _ := ⟨[], ⟨rfl, rfl, rfl⟩, List.forall_mem_nil _⟩
  trans := by
    rintro first second third ⟨tokens, hpasses, htokens⟩ ⟨more, hmorePasses, hmore⟩
    exact ⟨tokens ++ more, hpasses.trans hmorePasses,
      List.forall_mem_append.mpr ⟨htokens, hmore⟩⟩
  deeper _ _ _ := ⟨[], ⟨rfl, rfl, rfl⟩, List.forall_mem_nil _⟩
  back := by
    rintro state after ⟨tokens, ⟨htokens, hendSpan, hreports⟩, hall⟩
    exact ⟨tokens, ⟨htokens, hendSpan, hreports⟩, hall⟩

theorem takes_takeClosed : TakeClosed inExpression Takes where
  toRunClosed := takes_depthClosed.toRunClosed
  take state htoken := by
    have heof : state.current.kind ≠ .eof := by
      intro heof
      rw [heof] at htoken
      cases htoken
    exact ⟨_, (consumes_tail rfl heof).toPasses, List.forall_mem_singleton.mpr htoken⟩

theorem inExpression_of_binaryOp (op : BinaryOp) :
    inExpression (.symbol op.symbol) = true := by
  cases op <;> rfl

theorem inExpression_of_unaryOp (op : UnaryOp) :
    inExpression (.symbol op.symbol) = true := by
  cases op <;> rfl

theorem chainAfter_takes (level : Precedence) {operand : Parser Expr}
    (hoperand : Keeps Takes operand) (bound : Nat) :
    ∀ left, Keeps Takes (chainAfter level operand bound left) := by
  induction bound with
  | zero => exact fun _ => takes_depthClosed.refl
  | succ bound ih =>
      intro left state
      rw [finalState, chainAfter, bind_of_ok _ (peek_apply state)]
      cases hop : operator? level state.current.kind with
      | none => exact takes_depthClosed.refl state
      | some op =>
          have hkind := (operator?_eq_some_iff.mp hop).1
          refine takes_takeClosed.shift_run (hkind ▸ inExpression_of_binaryOp op) fun _ => ?_
          refine takes_depthClosed.bind (takes_depthClosed.spend _ _) fun _ => ?_
          exact takes_depthClosed.bind hoperand fun right => ih _

theorem binary_takes {operand : Parser Expr} (hoperand : Keeps Takes operand) :
    Keeps Takes (binary operand) := by
  unfold binary
  generalize Precedence.all = levels
  induction levels with
  | nil => exact hoperand
  | cons level levels ih =>
      exact takes_depthClosed.keepingDepth
        (takes_depthClosed.bind ih fun first => chainAfter_takes level ih _ first)

theorem unaryWithin_takes {primary : Parser Expr} (hprimary : Keeps Takes primary)
    (bound : Nat) : Keeps Takes (unaryWithin primary bound) := by
  induction bound with
  | zero => exact takes_depthClosed.refl
  | succ bound ih =>
      intro state
      rw [finalState, unaryWithin, bind_of_ok _ (peek_apply state)]
      cases hop : state.current.kind.symbol?.bind UnaryOp.ofSymbol? with
      | none => exact hprimary state
      | some op =>
          have hkind := (symbol?_bind_eq_some_iff unaryOp_ofSymbol?_eq_some_iff).mp hop
          refine takes_takeClosed.shift_run (hkind ▸ inExpression_of_unaryOp op) fun _ => ?_
          exact takes_depthClosed.bind (takes_depthClosed.budgeted _ _ ih) fun operand =>
            takes_depthClosed.pure _

section Expression

variable {expression : Parser Expr} (hexpression : Keeps Takes expression)
include hexpression

theorem arguments_takes : Keeps Takes (arguments expression) := by
  have hclosed : ∀ args : List Expr,
      Keeps Takes (do return (args, ← symbol .closeParen)) :=
    fun args => takes_depthClosed.bind (takes_takeClosed.symbol rfl) fun stop =>
      takes_depthClosed.pure _
  apply takes_depthClosed.ifAt .closeParen
  · exact takes_depthClosed.bind (takes_depthClosed.pure []) hclosed
  · exact takes_depthClosed.bind (takes_takeClosed.separatedByCommas rfl hexpression) hclosed

theorem reference_takes {state : ParserState} {name : String}
    (hname : state.current.kind = .identifier name) :
    Takes state (finalState (reference expression name) state) := by
  refine takes_takeClosed.shift_run (hname ▸ rfl) fun start => ?_
  refine takes_takeClosed.takeIfAt rfl (fun _ => ?_) (takes_depthClosed.pure _)
  exact takes_depthClosed.bind (arguments_takes hexpression) fun closed =>
    takes_depthClosed.pure _

theorem parenthesized_takes : Keeps Takes (parenthesized expression) := by
  refine takes_depthClosed.bind (takes_takeClosed.symbol rfl) fun start => ?_
  refine takes_depthClosed.bind hexpression fun inner => ?_
  exact takes_depthClosed.bind (takes_takeClosed.symbol rfl) fun stop =>
    takes_depthClosed.pure _

theorem primary_takes : Keeps Takes (primary expression) := by
  intro state
  have hliteral : ∀ make : Token → Expr, inExpression state.current.kind = true →
      Takes state (finalState (do return make (← shift)) state) :=
    fun make htoken => takes_takeClosed.shift_run htoken fun _ => takes_depthClosed.pure _
  rw [finalState, primary, bind_of_ok _ (peek_apply state)]
  cases hkind : state.current.kind with
  | integer text => exact hliteral (fun token => .integer token.span text) (hkind ▸ rfl)
  | float text => exact hliteral (fun token => .float token.span text) (hkind ▸ rfl)
  | string text => exact hliteral (fun token => .string token.span text) (hkind ▸ rfl)
  | keyword word =>
      cases word with
      | trueWord => exact hliteral (fun token => .boolean token.span true) (hkind ▸ rfl)
      | falseWord => exact hliteral (fun token => .boolean token.span false) (hkind ▸ rfl)
      | _ => exact takes_depthClosed.refl state
  | identifier name => exact reference_takes hexpression hkind
  | symbol mark =>
      cases mark with
      | openParen => exact parenthesized_takes hexpression state
      | _ => exact takes_depthClosed.refl state
  | type name => exact takes_depthClosed.refl state
  | eof => exact takes_depthClosed.refl state

theorem assignment_takes : Keeps Takes (assignment expression) := by
  refine takes_depthClosed.bind
    (binary_takes (unaryWithin_takes (primary_takes hexpression) _)) fun left => ?_
  cases left with
  | identifier start name =>
      refine takes_takeClosed.takeIfAt rfl (fun _ => ?_) (takes_depthClosed.pure _)
      exact takes_depthClosed.bind hexpression fun value => takes_depthClosed.pure _
  | _ => exact takes_depthClosed.ifAt .assign takes_depthClosed.refl (takes_depthClosed.pure _)

end Expression

theorem expressionWithin_takes (levels : Nat) : Keeps Takes (expressionWithin levels) := by
  induction levels with
  | zero => exact takes_depthClosed.refl
  | succ levels ih => exact takes_depthClosed.budgeted _ _ (assignment_takes ih)

theorem depth_finalState_expressionWithin (levels : Nat) (state : ParserState) :
    (finalState (expressionWithin levels) state).depth = state.depth := by
  cases levels with
  | zero => rfl
  | succ levels => exact depth_finalState_budgeted _ _ _ state

/-- Reading an expression changes nothing but the tokens that it takes, even if it
fails: the depth is set back in any case. -/
theorem exists_finalState_expression (state : ParserState) :
    ∃ tokens left, state.tokens = tokens ++ left ∧
      (∀ token ∈ tokens, inExpression token.kind = true) ∧
      finalState expression state = { state with tokens := left } := by
  obtain ⟨tokens, hpasses, htokens⟩ : Takes state (finalState expression state) :=
    expressionWithin_takes _ state
  have hdepth : (finalState expression state).depth = state.depth :=
    depth_finalState_expressionWithin _ state
  exact ⟨tokens, _, hpasses.tokens_eq, htokens, Consumes.after_eq ⟨hpasses, hdepth⟩⟩

end DeclCheck.Parser
