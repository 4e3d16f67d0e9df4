import DeclCheck.Proofs.Bare
import DeclCheck.Proofs.Parser.Completeness
import DeclCheck.Proofs.Program.Sites

/-!
# What expressions take from the nesting budget

The cost of an expression can be told from its tree: a parenthesis, an argument and
an assigned value cost a construct each, a prefix operator costs one, and the
operands of a chain cost one more from each to the next.  A chain gives back what it
took, so its first operand is not charged for the operators after it.  What was read
was affordable.
-/

namespace DeclCheck

namespace Expr

/-- The number of operators of the level from the root of an expression down its
left side. -/
def chainLength (level : Precedence) : Expr → Nat
  | binary _ op left _ =>
      if op.precedence = level then left.chainLength level + 1 else 0
  | _ => 0

mutual

/-- What the inside of an expression takes from the nesting budget. -/
def nesting : Expr → Nat
  | binary _ op left right =>
      max left.nesting
        (left.chainLength op.precedence + Parser.operatorCost + right.nesting)
  | unary _ _ operand => Parser.operatorCost + operand.nesting
  | assign _ _ value => Parser.constructCost + value.nesting
  | call _ _ args => nestingOfEach args
  | paren _ inner => Parser.constructCost + inner.nesting
  | _ => 0

/-- What the costliest of some expressions takes from the nesting budget. -/
def nestingOfEach : List Expr → Nat
  | [] => 0
  | first :: rest => max (Parser.constructCost + first.nesting) (nestingOfEach rest)

end

theorem nesting_le_nestingOfEach {exprs : List Expr} {expr : Expr} (hmem : expr ∈ exprs) :
    Parser.constructCost + expr.nesting ≤ nestingOfEach exprs := by
  induction exprs with
  | nil => cases hmem
  | cons first rest ih =>
      rw [nestingOfEach]
      rcases List.mem_cons.mp hmem with rfl | hrest
      · exact Nat.le_max_left _ _
      · exact Nat.le_trans (ih hrest) (Nat.le_max_right _ _)

/-- What stands inside an expression costs no more than all of it. -/
theorem nesting_le_of_mem_children {outer inner : Expr} (hinner : inner ∈ outer.children) :
    inner.nesting ≤ outer.nesting := by
  cases outer with
  | binary span op left right =>
      rw [children, List.mem_cons, List.mem_singleton] at hinner
      rcases hinner with rfl | rfl
      · exact Nat.le_max_left _ _
      · exact Nat.le_trans (Nat.le_add_left _ _) (Nat.le_max_right _ _)
  | unary span op operand =>
      rw [List.mem_singleton.mp hinner]
      exact Nat.le_add_left _ _
  | assign span target value =>
      rw [List.mem_singleton.mp hinner]
      exact Nat.le_add_left _ _
  | call span name args =>
      exact Nat.le_trans (Nat.le_add_left _ _) (nesting_le_nestingOfEach hinner)
  | paren span inner =>
      rw [List.mem_singleton.mp hinner]
      exact Nat.le_add_left _ _
  | _ => cases hinner

theorem Within.nesting_le {outer node : Expr} (hnode : outer.Within node) :
    node.nesting ≤ outer.nesting := by
  induction hnode with
  | self node => exact Nat.le_refl _
  | child hinner _ ih => exact Nat.le_trans ih (nesting_le_of_mem_children hinner)

@[simp]
theorem chainLength_bare (level : Precedence) (expr : Expr) :
    expr.bare.chainLength level = expr.chainLength level := by
  induction expr using chainLength.induct level with
  | case1 span op left right hop ih =>
      rw [bare, chainLength, if_pos hop, ih, chainLength, if_pos hop]
  | case2 span op left right hop =>
      rw [bare, chainLength, if_neg hop, chainLength, if_neg hop]
  | case3 expr hother =>
      cases expr with
      | binary span op left right => exact absurd rfl (hother span op left right)
      | _ => rfl

mutual

@[simp]
theorem nesting_bare : ∀ expr : Expr, expr.bare.nesting = expr.nesting
  | .integer .. => rfl
  | .float .. => rfl
  | .string .. => rfl
  | .boolean .. => rfl
  | .identifier .. => rfl
  | .binary span op left right => by
      rw [bare, nesting, nesting_bare left, nesting_bare right, chainLength_bare, nesting]
  | .unary span op operand => by
      rw [bare, nesting, nesting_bare operand, nesting]
  | .assign span target value => by
      rw [bare, nesting, nesting_bare value, nesting]
  | .call span name args => by
      rw [bare, nesting, nestingOfEach_bareEach args, nesting]
  | .paren span inner => by
      rw [bare, nesting, nesting_bare inner, nesting]

theorem nestingOfEach_bareEach :
    ∀ exprs : List Expr, nestingOfEach (bareEach exprs) = nestingOfEach exprs
  | [] => rfl
  | first :: rest => by
      rw [bareEach, nestingOfEach, nesting_bare first, nestingOfEach_bareEach rest,
        nestingOfEach]

end

end Expr

namespace Grammar

/-- Expressions of the class hold no operator of the level unless inside
parentheses or a call. -/
def Tighter (level : Precedence) : ExprClass → Prop
  | .expression => False
  | .level other => level.rank < other.rank
  | .prefixed => True
  | .primary => True

theorem tighter_operands (level : Precedence) : Tighter level (operands level) := by
  cases level <;> simp [operands, Tighter, Precedence.rank]

theorem Tighter.operands {level other : Precedence} (htighter : Tighter level (.level other)) :
    Tighter level (operands other) := by
  cases other <;> simp_all [Grammar.operands, Tighter, Precedence.rank] <;> omega

theorem DerivesExpr.chainLength_of_tighter {level : Precedence} :
    ∀ {cls : ExprClass} {tokens : List Token} {expr : Expr},
      DerivesExpr cls tokens expr → Tighter level cls → expr.chainLength level = 0
  | _, _, _, .integer _ _, _ => rfl
  | _, _, _, .float _ _, _ => rfl
  | _, _, _, .string _ _, _ => rfl
  | _, _, _, .boolean _ _, _ => rfl
  | _, _, _, .identifier _ _, _ => rfl
  | _, _, _, .emptyCall _ _ _ _, _ => rfl
  | _, _, _, .call _ _ _ _ _, _ => rfl
  | _, _, _, .paren _ _ _, _ => rfl
  | _, _, _, .ofPrimary hprimary, _ => hprimary.chainLength_of_tighter trivial
  | _, _, _, .unary _ _ _, _ => rfl
  | _, _, _, .ofOperand _ hoperand, htighter =>
      hoperand.chainLength_of_tighter htighter.operands
  | _, _, _, .binary _ op _ _, htighter => by
      have hother : op.precedence ≠ level := by
        rintro rfl
        exact Nat.lt_irrefl _ htighter
      rw [Expr.chainLength, if_neg hother]

end Grammar

namespace Parser

open Grammar

variable {α : Type}

/-- What the parser reads, read within the budget, leaves the budget unexceeded. -/
def Affords (parser : Parser α) (cost : α → Nat) : Prop :=
  ∀ ⦃state after : ParserState⦄ ⦃value : α⦄, state.depth ≤ nestingBudget →
    parser state = .ok value after → state.depth + cost value ≤ nestingBudget

theorem depth_of_shift {state after : ParserState} {token : Token}
    (hrun : shift state = .ok token after) : after.depth = state.depth := by
  cases hrun
  rfl

/-- What is affordable after a step that keeps the depth was so before it. -/
theorem Affords.of_depth_eq {parser : Parser α} {cost : α → Nat}
    (hparser : Affords parser cost) {state middle after : ParserState} {value : α}
    (hsame : middle.depth = state.depth) (hdepth : state.depth ≤ nestingBudget)
    (hrun : parser middle = .ok value after) :
    state.depth + cost value ≤ nestingBudget := by
  rw [← hsame] at hdepth ⊢
  exact hparser hdepth hrun

theorem Affords.budgeted {parser : Parser α} {cost : α → Nat}
    (hparser : Affords parser cost) (price : Nat) (construct : Construct) :
    Affords (budgeted price construct parser) fun value => price + cost value := by
  intro state after value _ hrun
  have hprice := depth_le_of_budgeted hrun
  obtain ⟨reached, hinner, _⟩ := budgeted_eq_ok hrun
  have hinside := hparser hprice hinner
  rw [← Nat.add_assoc]
  exact hinside

section Chains

variable {level : Precedence} {operand : Parser Expr}
  (hreads : Reads operand (DerivesExpr (operands level)))
  (haffords : Affords operand Expr.nesting)
include hreads haffords

/-- Along a chain the depth is that of its start plus one for each operator, and
whatever was read up to here was affordable from the start. -/
theorem chainAfter_affords (base bound : Nat) :
    ∀ {left : Expr} {state after : ParserState} {value : Expr},
      state.depth = base + left.chainLength level →
      base + left.nesting ≤ nestingBudget →
      chainAfter level operand bound left state = .ok value after →
      base + value.nesting ≤ nestingBudget := by
  induction bound with
  | zero =>
      intro left state after value _ _ hrun
      cases hrun
  | succ bound ih =>
      intro left state after value hdepth hleft hrun
      rw [chainAfter, bind_of_ok _ (peek_apply state)] at hrun
      cases hop : operator? level state.current.kind with
      | none =>
          simp only [hop] at hrun
          cases hrun
          exact hleft
      | some op =>
          obtain ⟨_, hlevel⟩ := operator?_eq_some_iff.mp hop
          simp only [hop, bind_eq_ok_iff] at hrun
          obtain ⟨mark, afterMark, hshift, _, afterSpend, hspend, right, afterRight,
            hright, hmore⟩ := hrun
          obtain ⟨hspent, hspentState⟩ := spend_eq_ok hspend
          have hafterSpend : afterSpend.depth = afterMark.depth + operatorCost := by
            rw [hspentState]
          rw [depth_of_shift hshift, hdepth] at hspent hafterSpend
          have hrightCost := haffords (hafterSpend ▸ hspent) hright
          obtain ⟨_, hconsumed, _⟩ := hreads hright
          apply ih _ _ hmore
          · rw [hconsumed.depth_eq, hafterSpend, Expr.chainLength, if_pos hlevel,
              Nat.add_assoc]
            rfl
          · rw [hafterSpend] at hrightCost
            simp only [Expr.nesting, hlevel]
            omega

theorem chain_affords : Affords (chain level operand) Expr.nesting := by
  intro state after value hdepth hrun
  rw [chain, keepingDepth] at hrun
  split at hrun
  · rename_i last hinner
    cases hrun
    obtain ⟨first, afterFirst, hfirst, hmore⟩ := bind_eq_ok_iff.mp hinner
    obtain ⟨_, hconsumed, hderives⟩ := hreads hfirst
    have hnone := hderives.chainLength_of_tighter (tighter_operands level)
    apply chainAfter_affords hreads haffords state.depth _ _ _ hmore
    · rw [hconsumed.depth_eq, hnone, Nat.add_zero]
    · exact haffords hdepth hfirst
  · cases hrun

end Chains

theorem binary_affords {operand : Parser Expr}
    (hreads : Reads operand (DerivesExpr .prefixed))
    (haffords : Affords operand Expr.nesting) : Affords (binary operand) Expr.nesting := by
  have hproduct := chain_reads .product hreads
  have hsum := chain_reads .sum hproduct
  have hcomparison := chain_reads .comparison hsum
  have hequality := chain_reads .equality hcomparison
  have hconjunction := chain_reads .conjunction hequality
  exact chain_affords hconjunction <| chain_affords hequality <|
    chain_affords hcomparison <| chain_affords hsum <| chain_affords hproduct <|
      chain_affords hreads haffords

theorem unaryWithin_affords {primary : Parser Expr}
    (hprimary : Affords primary Expr.nesting) (bound : Nat) :
    Affords (unaryWithin primary bound) Expr.nesting := by
  induction bound with
  | zero =>
      intro state after value _ hrun
      cases hrun
  | succ bound ih =>
      intro state after value hdepth hrun
      rw [unaryWithin, bind_of_ok _ (peek_apply state)] at hrun
      cases hop : state.current.kind.symbol?.bind UnaryOp.ofSymbol? with
      | none =>
          simp only [hop] at hrun
          exact hprimary hdepth hrun
      | some op =>
          simp only [hop, bind_eq_ok_iff] at hrun
          obtain ⟨start, afterStart, hshift, operand, afterOperand, hoperand, hpure⟩ :=
            hrun
          cases hpure
          exact (ih.budgeted operatorCost .expression).of_depth_eq
            (depth_of_shift hshift) hdepth hoperand

section Inside

variable {expression : Parser Expr}
  (hreads : Reads expression (DerivesExpr .expression))
  (haffords : Affords expression fun expr => constructCost + expr.nesting)
include hreads haffords

theorem moreAfterComma_affords (bound : Nat) :
    Affords (moreAfterComma expression bound) Expr.nestingOfEach := by
  induction bound with
  | zero =>
      intro state after values hdepth hrun
      cases hrun
      exact hdepth
  | succ bound ih =>
      intro state after values hdepth hrun
      rw [moreAfterComma, bind_of_ok _ (at?_apply _ state)] at hrun
      by_cases hcomma : state.current.kind = .symbol .comma
      · simp only [hcomma, decide_true, if_true, bind_eq_ok_iff] at hrun
        obtain ⟨comma, afterComma, hshift, next, afterNext, hnext, others, last,
          hothers, hpure⟩ := hrun
        cases hpure
        have hsame := depth_of_shift hshift
        obtain ⟨_, hconsumed, _⟩ := hreads hnext
        have hnextCost := haffords.of_depth_eq hsame hdepth hnext
        have hothersCost := ih.of_depth_eq (hconsumed.depth_eq.trans hsame) hdepth hothers
        simp only [Expr.nestingOfEach] at hnextCost hothersCost ⊢
        omega
      · simp only [hcomma, decide_false] at hrun
        cases hrun
        exact hdepth

theorem arguments_affords :
    Affords (arguments expression) fun closed => Expr.nestingOfEach closed.1 := by
  intro state after closed hdepth hrun
  rw [arguments, bind_of_ok _ (at?_apply _ state)] at hrun
  by_cases hclose : state.current.kind = .symbol .closeParen
  · simp only [hclose, decide_true, if_true, bind_eq_ok_iff] at hrun
    obtain ⟨_, _, hnone, stop, _, hstop, hpure⟩ := hrun
    cases hnone
    cases hpure
    exact hdepth
  · simp only [hclose, decide_false, Bool.false_eq_true, if_false, separatedByCommas,
      bind_eq_ok_iff] at hrun
    obtain ⟨args, afterArgs, ⟨first, afterFirst, hfirst, left, _, hleft, others, last,
      hothers, hargs⟩, stop, _, hstop, hpure⟩ := hrun
    cases hleft
    cases hargs
    cases hpure
    obtain ⟨_, hconsumed, _⟩ := hreads hfirst
    have hfirstCost := haffords hdepth hfirst
    have hothersCost := (moreAfterComma_affords hreads haffords _).of_depth_eq
      hconsumed.depth_eq hdepth hothers
    simp only [Expr.nestingOfEach] at hfirstCost hothersCost ⊢
    omega

theorem reference_affords (name : String) :
    Affords (reference expression name) Expr.nesting := by
  intro state after value hdepth hrun
  simp only [reference, bind_eq_ok_iff] at hrun
  obtain ⟨start, afterName, hshift, found, _, hfound, hrun⟩ := hrun
  cases hfound
  split at hrun
  · simp only [bind_eq_ok_iff] at hrun
    obtain ⟨opening, afterOpening, hopening, closed, _, hclosed, hpure⟩ := hrun
    cases hpure
    exact (arguments_affords hreads haffords).of_depth_eq
      ((depth_of_shift hopening).trans (depth_of_shift hshift)) hdepth hclosed
  · cases hrun
    exact hdepth

omit hreads in
theorem parenthesized_affords : Affords (parenthesized expression) Expr.nesting := by
  intro state after value hdepth hrun
  simp only [parenthesized, bind_eq_ok_iff] at hrun
  obtain ⟨start, _, hstart, inner, _, hinner, stop, _, hstop, hpure⟩ := hrun
  cases hpure
  exact haffords.of_depth_eq (symbol_consumes hstart).depth_eq hdepth hinner

theorem primary_affords : Affords (primary expression) Expr.nesting := by
  intro state after value hdepth hrun
  rw [primary, bind_of_ok _ (peek_apply state)] at hrun
  cases hkind : state.current.kind with
  | identifier name =>
      simp only [hkind] at hrun
      exact reference_affords hreads haffords name hdepth hrun
  | symbol mark =>
      cases mark with
      | openParen =>
          simp only [hkind] at hrun
          exact parenthesized_affords haffords hdepth hrun
      | _ =>
          simp only [hkind] at hrun
          cases hrun
  | integer text =>
      simp only [hkind] at hrun
      cases hrun
      exact hdepth
  | float text =>
      simp only [hkind] at hrun
      cases hrun
      exact hdepth
  | string text =>
      simp only [hkind] at hrun
      cases hrun
      exact hdepth
  | keyword word =>
      cases word with
      | trueWord =>
          simp only [hkind] at hrun
          cases hrun
          exact hdepth
      | falseWord =>
          simp only [hkind] at hrun
          cases hrun
          exact hdepth
      | _ =>
          simp only [hkind] at hrun
          cases hrun
  | _ =>
      simp only [hkind] at hrun
      cases hrun

theorem assignment_affords : Affords (assignment expression) Expr.nesting := by
  intro state after value hdepth hrun
  simp only [assignment, bind_eq_ok_iff] at hrun
  obtain ⟨left, afterLeft, hleft, found, _, hfound, hrun⟩ := hrun
  cases hfound
  have hoperand := unaryWithin_reads (primary_reads hreads) (nestingBudget + 1)
  have hleftCost := binary_affords hoperand
    (unaryWithin_affords (primary_affords hreads haffords) _) hdepth hleft
  obtain ⟨_, hconsumed, _⟩ := binary_reads hoperand hleft
  split at hrun
  · split at hrun
    · simp only [bind_eq_ok_iff] at hrun
      obtain ⟨mark, afterMark, hshift, value, _, hvalue, hpure⟩ := hrun
      cases hpure
      exact haffords.of_depth_eq ((depth_of_shift hshift).trans hconsumed.depth_eq) hdepth
        hvalue
    · cases hrun
  · cases hrun
    exact hleftCost

end Inside

theorem expressionWithin_affords (levels : Nat) :
    Affords (expressionWithin levels) fun expr => constructCost + expr.nesting := by
  induction levels with
  | zero =>
      intro state after value _ hrun
      cases hrun
  | succ levels ih =>
      exact (assignment_affords (expressionWithin_reads levels) ih).budgeted _ _

/-- What was read as an expression fits into the whole budget. -/
theorem nesting_le_of_expression {state after : ParserState} {expr : Expr}
    (hrun : expression state = .ok expr after) :
    constructCost + expr.nesting ≤ nestingBudget := by
  have hdepth : state.depth ≤ nestingBudget :=
    Nat.le_trans (Nat.le_add_right _ _) (depth_le_of_budgeted hrun)
  exact Nat.le_trans (Nat.le_add_left _ _) (expressionWithin_affords _ hdepth hrun)

end Parser

end DeclCheck
