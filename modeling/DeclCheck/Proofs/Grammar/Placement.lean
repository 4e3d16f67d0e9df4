import DeclCheck.Proofs.Grammar
import DeclCheck.Proofs.Program.Placement

/-!
# The places of phrases

A phrase of the grammar over tokens that follow one another in the source is placed on
its tokens: the spans that the rules give to nodes reach from the first token of the
phrase to the last.
-/

namespace DeclCheck.Grammar

mutual

theorem DerivesExpr.placedOn :
    ∀ {cls : ExprClass} {tokens : List Token} {expr : Expr},
      DerivesExpr cls tokens expr → InOrder 0 tokens → Placed tokens (.expr expr)
  | _, _, _, .integer _ _, _ => .intro (spans_single _) (.none _)
  | _, _, _, .float _ _, _ => .intro (spans_single _) (.none _)
  | _, _, _, .string _ _, _ => .intro (spans_single _) (.none _)
  | _, _, _, .boolean _ _, _ => .intro (spans_single _) (.none _)
  | _, _, _, .identifier _ _, _ => .intro (spans_single _) (.none _)
  | _, _, _, .emptyCall _ _ _ _, horder =>
      .intro ((spans_single _).cover [_] (spans_single _) horder) (.none _)
  | _, _, _, .call _ _ _ _ hargs, horder =>
      .intro ((spans_single _).cover (_ :: _) (spans_single _) horder)
        (.skip _ (.skip _ ((hargs.inside horder.of_cons.of_cons.left).before _)))
  | _, _, _, .paren _ _ hinner, horder =>
      .intro ((spans_single _).cover _ (spans_single _) horder)
        (.skip _ (.next (hinner.placedOn horder.of_cons.left) (.none _)))
  | _, _, _, .ofPrimary hprimary, horder => hprimary.placedOn horder
  | _, _, _, .unary _ _ hoperand, horder =>
      have hplaced := hoperand.placedOn horder.of_cons
      .intro ((spans_single _).cover [] hplaced.spans horder) (.skip _ hplaced.alone)
  | _, _, _, .ofOperand _ hoperand, horder => hoperand.placedOn horder
  | _, _, _, .binary mark op hleft hright, horder =>
      have hplacedLeft := hleft.placedOn horder.left
      have hplacedRight := hright.placedOn horder.right.of_cons
      .intro (hplacedLeft.spans.cover [⟨.symbol op.symbol, mark⟩] hplacedRight.spans horder)
        (.next hplacedLeft (.skip _ hplacedRight.alone))
  | _, _, _, .ofChain hchain, horder => hchain.placedOn horder
  | _, _, _, .assign _ mark _ hvalue, horder =>
      have hplaced := hvalue.placedOn horder.of_cons.of_cons
      .intro ((spans_single _).cover [⟨.symbol .assign, mark⟩] hplaced.spans horder)
        (.skip _ (.skip _ hplaced.alone))

theorem DerivesArgs.inside :
    ∀ {tokens : List Token} {args : List Expr}, DerivesArgs tokens args →
      InOrder 0 tokens → Inside tokens (args.map Node.expr)
  | _, _, .last hexpr, horder => (hexpr.placedOn horder).alone
  | _, _, .more _ hexpr hrest, horder =>
      .next (hexpr.placedOn horder.left) (.skip _ (hrest.inside horder.right.of_cons))

end

/-! ## Declarations and parts of statements -/

theorem DerivesVariable.placedOn {tokens : List Token} {decl : VariableDecl}
    (hdecl : DerivesVariable tokens decl) (horder : InOrder 0 tokens) :
    Placed tokens (.variableDecl decl) := by
  obtain ⟨start, middle, stop, type, name, hinit⟩ := hdecl
  cases hinit with
  | absent =>
      exact .intro ((spans_single _).cover [_] (spans_single _) horder) (.none _)
  | present mark hvalue =>
      have hplaced := hvalue.placedOn horder.of_cons.of_cons.of_cons.left
      exact .intro ((spans_single _).cover (_ :: _ :: _) (spans_single _) horder)
        (.skip _ (.skip _ (.skip _ (.next hplaced (.none _)))))

/-- An expression with its semicolon is the place of a node that covers both. -/
theorem DerivesEvaluation.placedOn {stop : Span} {tokens : List Token} {expr : Expr} {node : Node}
    (hexpr : DerivesEvaluation stop tokens expr) (horder : InOrder 0 tokens)
    (hspan : node.span = expr.span.cover stop) (hchildren : node.children = [.expr expr]) :
    Placed tokens node := by
  obtain ⟨hexpr⟩ := hexpr
  have hplaced := hexpr.placedOn horder.left
  constructor
  · rw [hspan]
    exact hplaced.spans.cover [] (spans_single _) horder
  · rw [hchildren]
    exact .next hplaced (.none _)

theorem DerivesCondition.inside {tokens : List Token} {expr : Expr}
    (hexpr : DerivesCondition tokens expr) (horder : InOrder 0 tokens) :
    Inside tokens [.expr expr] := by
  obtain ⟨opening, closing, hexpr⟩ := hexpr
  exact .skip _ (.next (hexpr.placedOn horder.of_cons.left) (.none _))

/-! ## Parameters -/

theorem DerivesParameter.placedOn {tokens : List Token} {param : Parameter}
    (hparam : DerivesParameter tokens param) (horder : InOrder 0 tokens) :
    Placed tokens (.parameter param) := by
  obtain ⟨start, stop, type, name⟩ := hparam
  exact .intro ((spans_single _).cover [] (spans_single _) horder) (.none _)

theorem DerivesParameters.inside {tokens : List Token} {params : List Parameter}
    (hparams : DerivesParameters tokens params) (horder : InOrder 0 tokens) :
    Inside tokens (params.map Node.parameter) := by
  induction hparams with
  | last hparam => exact (hparam.placedOn horder).alone
  | more comma hparam hrest ih =>
      exact .next (hparam.placedOn horder.left) (.skip _ (ih horder.right.of_cons))

theorem DerivesParameterList.inside {tokens : List Token} {params : Option (List Parameter)}
    (hparams : DerivesParameterList tokens params) (horder : InOrder 0 tokens) :
    Inside tokens ((params.getD []).map Node.parameter) := by
  cases hparams with
  | absent => exact .none _
  | present hparams => exact hparams.inside horder

end DeclCheck.Grammar
