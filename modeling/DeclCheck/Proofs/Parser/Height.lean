import DeclCheck.Proofs.Parser.Reread
import Mathlib.Order.MinMax

/-!
# How high expressions get

The nesting budget bounds the height of the trees that are read, but not by its own
amount.  A chain gives back what it took, so each of the six levels of operators may
add the whole budget to the height of the first operand, and so may every pair of
parentheses with what is left of it.  `highest` is the height that an expression of a
given cost may have, and there is an expression of each cost that has it.

Only the left sides of operators go unpaid.  Their `overhang` says by how much the
height may exceed the cost.
-/

namespace DeclCheck

namespace Expr

mutual

/-- The number of nodes on the longest path from the root to a leaf. -/
def height : Expr → Nat
  | binary _ _ left right => max left.height right.height + 1
  | unary _ _ operand => operand.height + 1
  | assign _ _ value => value.height + 1
  | call _ _ args => heightOfEach args + 1
  | paren _ inner => inner.height + 1
  | _ => 1

/-- The height of the highest of some expressions. -/
def heightOfEach : List Expr → Nat
  | [] => 0
  | first :: rest => max first.height (heightOfEach rest)

end

theorem one_le_height (expr : Expr) : 1 ≤ expr.height := by
  cases expr with
  | binary | unary | assign | call | paren =>
      rw [height]
      exact Nat.le_add_left _ _
  | _ => exact Nat.le_refl 1

mutual

theorem height_bare : ∀ expr : Expr, expr.bare.height = expr.height
  | .integer .. => rfl
  | .float .. => rfl
  | .string .. => rfl
  | .boolean .. => rfl
  | .identifier .. => rfl
  | .binary _ _ left right => by
      rw [bare, height, height, height_bare left, height_bare right]
  | .unary _ _ operand => by rw [bare, height, height, height_bare operand]
  | .assign _ _ value => by rw [bare, height, height, height_bare value]
  | .call _ _ args => by rw [bare, height, height, heightOfEach_bareEach args]
  | .paren _ inner => by rw [bare, height, height, height_bare inner]

theorem heightOfEach_bareEach :
    ∀ exprs : List Expr, heightOfEach (bareEach exprs) = heightOfEach exprs
  | [] => rfl
  | first :: rest => by
      rw [bareEach, heightOfEach, heightOfEach, height_bare first,
        heightOfEach_bareEach rest]

end

mutual

/-- By how much the left side of an operator is at most higher than the chain of
operators in it.  What the left side itself holds does not count again. -/
def overhang : Expr → Nat
  | binary _ op left right =>
      max (left.height - (left.chainLength op.precedence + 1)) right.overhang
  | unary _ _ operand => operand.overhang
  | assign _ _ value => value.overhang
  | call _ _ args => overhangOfEach args
  | paren _ inner => inner.overhang
  | _ => 0

/-- The greatest overhang of some expressions. -/
def overhangOfEach : List Expr → Nat
  | [] => 0
  | first :: rest => max first.overhang (overhangOfEach rest)

end

mutual

/-- An expression is higher than its cost by no more than its overhang. -/
theorem height_le_nesting_add_overhang :
    ∀ expr : Expr, expr.height ≤ expr.nesting + expr.overhang + 1
  | .integer .. => Nat.le_add_left _ _
  | .float .. => Nat.le_add_left _ _
  | .string .. => Nat.le_add_left _ _
  | .boolean .. => Nat.le_add_left _ _
  | .identifier .. => Nat.le_add_left _ _
  | .binary _ _ left right => by
      have hright := height_le_nesting_add_overhang right
      rw [height, nesting, overhang, Parser.operatorCost]
      omega
  | .unary _ _ operand => by
      have hoperand := height_le_nesting_add_overhang operand
      rw [height, nesting, overhang, Parser.operatorCost]
      omega
  | .assign _ _ value => by
      have hvalue := height_le_nesting_add_overhang value
      rw [height, nesting, overhang, Parser.constructCost]
      omega
  | .call _ _ args => by
      have hargs := heightOfEach_le_nestingOfEach args
      rw [height, nesting, overhang]
      omega
  | .paren _ inner => by
      have hinner := height_le_nesting_add_overhang inner
      rw [height, nesting, overhang, Parser.constructCost]
      omega

theorem heightOfEach_le_nestingOfEach :
    ∀ exprs : List Expr, heightOfEach exprs ≤ nestingOfEach exprs + overhangOfEach exprs
  | [] => Nat.zero_le _
  | first :: rest => by
      have hfirst := height_le_nesting_add_overhang first
      have hrest := heightOfEach_le_nestingOfEach rest
      rw [heightOfEach, nestingOfEach, overhangOfEach, Parser.constructCost]
      omega

end

end Expr

namespace Parser

open Grammar

/-- The greatest height of an operand with its prefix operators, by its cost: that
many operators before a leaf, or parentheses around six chains, each as long as the
cost that is left inside them allows. -/
def highestPrefixed : Nat → Nat
  | 0 => 1
  | 1 => 2
  | 2 => 3
  | 3 => 4
  | cost + 4 => max (cost + 5) (highestPrefixed cost + 6 * cost + 1)

/-- The greatest height of an expression, by its cost. -/
def highest (cost : Nat) : Nat :=
  highestPrefixed cost + 6 * cost

theorem highestPrefixed_lt_succ (cost : Nat) :
    highestPrefixed cost < highestPrefixed (cost + 1) := by
  induction cost using highestPrefixed.induct with
  | case5 cost ih =>
      rw [highestPrefixed, highestPrefixed]
      omega
  | _ => decide

theorem highestPrefixed_mono : Monotone highestPrefixed :=
  monotone_nat_of_le_succ fun cost => (highestPrefixed_lt_succ cost).le

theorem one_le_highestPrefixed (cost : Nat) : 1 ≤ highestPrefixed cost :=
  highestPrefixed_mono (Nat.zero_le cost)

/-- A construct may hold the highest expression for what it leaves. -/
theorem highest_lt_construct (cost : Nat) :
    highest cost < highestPrefixed (constructCost + cost) := by
  rw [constructCost, Nat.add_comm, highestPrefixed, highest]
  exact Nat.lt_of_lt_of_le (Nat.lt_succ_self _) (Nat.le_max_right _ _)

/-! ## The bound -/

/-- What it means for each class that an expression is no higher than its cost
allows.  A chain is charged for the operators on its left side, and for full chains
of all tighter levels. -/
def HeightBounded : ExprClass → Expr → Prop
  | .expression, expr => expr.height ≤ highest expr.nesting
  | .level level, expr =>
      expr.height ≤ expr.chainLength level +
        ((5 - level.rank) * expr.nesting + highestPrefixed expr.nesting)
  | .prefixed, expr => expr.height ≤ highestPrefixed expr.nesting
  | .primary, expr => expr.height ≤ highestPrefixed expr.nesting

/-- A chain has at most as many operators as it costs. -/
theorem height_le_of_level {level : Precedence} {expr : Expr}
    (hlevel : HeightBounded (.level level) expr) :
    expr.height ≤ (6 - level.rank) * expr.nesting + highestPrefixed expr.nesting := by
  have hchain := expr.chainLength_le_nesting level
  have hrank : 6 - level.rank = 5 - level.rank + 1 := by cases level <;> rfl
  calc
    expr.height ≤ expr.chainLength level +
        ((5 - level.rank) * expr.nesting + highestPrefixed expr.nesting) := hlevel
    _ ≤ expr.nesting +
        ((5 - level.rank) * expr.nesting + highestPrefixed expr.nesting) :=
      Nat.add_le_add_right hchain _
    _ = (6 - level.rank) * expr.nesting + highestPrefixed expr.nesting := by
      rw [hrank, Nat.add_mul, Nat.one_mul]
      omega

/-- Between the operators of a level stand chains of the tighter levels. -/
theorem height_le_of_operand {level : Precedence} {expr : Expr}
    (hoperand : HeightBounded (operands level) expr) :
    expr.height ≤ (5 - level.rank) * expr.nesting + highestPrefixed expr.nesting := by
  cases level with
  | product => exact Nat.le_trans hoperand (Nat.le_add_left _ _)
  | _ => exact height_le_of_level hoperand

/-- One more operator adds one to the height, and what stands on its right had less to
spend than the chain as a whole. -/
theorem heightBounded_binary {op : BinaryOp} {left right : Expr} (span : Span)
    (hleft : HeightBounded (.level op.precedence) left)
    (hright : HeightBounded (operands op.precedence) right) :
    HeightBounded (.level op.precedence) (.binary span op left right) := by
  have hleftCost : left.nesting ≤ (Expr.binary span op left right).nesting := by
    rw [Expr.nesting]
    exact Nat.le_max_left _ _
  have hrightCost : right.nesting ≤ (Expr.binary span op left right).nesting := by
    rw [Expr.nesting]
    exact Nat.le_trans (Nat.le_add_left _ _) (Nat.le_max_right _ _)
  have hbound : ∀ {cost more : Nat}, cost ≤ more →
      (5 - op.precedence.rank) * cost + highestPrefixed cost ≤
        (5 - op.precedence.rank) * more + highestPrefixed more := fun hmore =>
    Nat.add_le_add (Nat.mul_le_mul_left _ hmore) (highestPrefixed_mono hmore)
  have hleftHeight := Nat.le_trans hleft (Nat.add_le_add_left (hbound hleftCost) _)
  have hrightHeight := Nat.le_trans (height_le_of_operand hright) (hbound hrightCost)
  rw [HeightBounded, Expr.height, Expr.chainLength, if_pos rfl]
  omega

theorem height_lt_of_construct {expr : Expr} (hexpr : HeightBounded .expression expr) :
    expr.height + 1 ≤ highestPrefixed (constructCost + expr.nesting) :=
  Nat.lt_of_le_of_lt hexpr (highest_lt_construct expr.nesting)

mutual

/-- No expression of the grammar is higher than its cost allows. -/
theorem heightBounded :
    ∀ {cls : ExprClass} {tokens : List Token} {expr : Expr},
      DerivesExpr cls tokens expr → HeightBounded cls expr
  | _, _, _, .integer _ _ => one_le_highestPrefixed _
  | _, _, _, .float _ _ => one_le_highestPrefixed _
  | _, _, _, .string _ _ => one_le_highestPrefixed _
  | _, _, _, .boolean _ _ => one_le_highestPrefixed _
  | _, _, _, .identifier _ _ => one_le_highestPrefixed _
  | _, _, _, .emptyCall _ _ _ _ => one_le_highestPrefixed _
  | _, _, _, .call _ _ _ _ hargs => heightOfEach_bounded hargs
  | _, _, _, .paren _ _ hinner => height_lt_of_construct (heightBounded hinner)
  | _, _, _, .ofPrimary hprimary => by
      have hheight := heightBounded hprimary
      exact hheight
  | _, _, _, .unary _ _ hoperand => by
      have hheight := heightBounded hoperand
      rw [HeightBounded, Expr.height, Expr.nesting, operatorCost, Nat.add_comm 1]
      exact Nat.lt_of_le_of_lt hheight (highestPrefixed_lt_succ _)
  | _, _, _, .ofOperand _ hoperand =>
      Nat.le_trans (height_le_of_operand (heightBounded hoperand)) (Nat.le_add_left _ _)
  | _, _, _, .binary _ _ hleft hright =>
      heightBounded_binary _ (heightBounded hleft) (heightBounded hright)
  | _, _, _, .ofChain hchain => by
      rw [HeightBounded, highest, Nat.add_comm]
      exact height_le_of_level (heightBounded hchain)
  | _, _, _, .assign _ _ _ hvalue =>
      Nat.le_trans (height_lt_of_construct (heightBounded hvalue)) (Nat.le_add_right _ _)

theorem heightOfEach_bounded :
    ∀ {tokens : List Token} {args : List Expr}, DerivesArgs tokens args →
      Expr.heightOfEach args + 1 ≤ highestPrefixed (Expr.nestingOfEach args)
  | _, _, .last hexpr => by
      have hheight := height_lt_of_construct (heightBounded hexpr)
      simpa only [Expr.heightOfEach, Expr.nestingOfEach, Nat.max_zero] using hheight
  | _, _, .more _ hexpr hrest => by
      have hfirst := height_lt_of_construct (heightBounded hexpr)
      have hothers := heightOfEach_bounded hrest
      rw [Expr.heightOfEach, Expr.nestingOfEach, highestPrefixed_mono.map_max]
      omega

end

/-! ## Expressions that reach it -/

/-- Some expression of the class can be written down, costs no more than said and has
the height. -/
def Reaches (cls : ExprClass) (cost height : Nat) : Prop :=
  ∃ tokens expr, DerivesExpr cls tokens expr ∧
    (∀ token ∈ tokens, token.kind.IsSpelled) ∧ expr.nesting ≤ cost ∧ expr.height = height

/-- A digit, as a token. -/
def oneToken : Token :=
  ⟨.integer "1", {}⟩

theorem isSpelled_one : oneToken.kind.IsSpelled := by
  have hdigits : Lexer.IsDigits ['1'] :=
    ⟨List.cons_ne_nil _ _, List.forall_mem_singleton.mpr rfl⟩
  exact Lexer.Lexeme.integer hdigits

theorem isSpelled_symbol (mark : Symbol) : (TokenKind.symbol mark).IsSpelled := by
  rw [TokenKind.IsSpelled, (Lexer.Lexeme.symbol mark).spelling]
  exact .symbol mark

/-- Prefix operators before a digit. -/
theorem reaches_operators (count : Nat) : Reaches .prefixed count (count + 1) := by
  induction count with
  | zero =>
      refine ⟨[oneToken], .integer {} "1", .ofPrimary (.integer {} "1"), ?_,
        Nat.le_refl _, rfl⟩
      exact List.forall_mem_singleton.mpr isSpelled_one
  | succ count ih =>
      obtain ⟨tokens, expr, hderives, hspelled, hcost, hheight⟩ := ih
      refine ⟨_, _, .unary {} .negate hderives, ?_, ?_, ?_⟩
      · exact List.forall_mem_cons.mpr ⟨isSpelled_symbol _, hspelled⟩
      · rw [Expr.nesting, operatorCost]
        omega
      · rw [Expr.height, hheight]

theorem Reaches.paren {cost height : Nat} (hinner : Reaches .expression cost height) :
    Reaches .prefixed (cost + constructCost) (height + 1) := by
  obtain ⟨tokens, expr, hderives, hspelled, hcost, hheight⟩ := hinner
  refine ⟨_, _, .ofPrimary (.paren {} {} hderives), ?_, ?_, ?_⟩
  · rw [List.forall_mem_cons, List.forall_mem_append, List.forall_mem_singleton]
    exact ⟨isSpelled_symbol _, hspelled, isSpelled_symbol _⟩
  · rw [Expr.nesting, Nat.add_comm]
    exact Nat.add_le_add_right hcost _
  · rw [Expr.height, hheight]

/-- A chain of any length within the cost may follow an operand, and costs nothing on
top of it. -/
theorem exists_chain {level : Precedence} {cost height : Nat}
    (hoperand : Reaches (operands level) cost height) (count : Nat) (hcount : count ≤ cost) :
    ∃ tokens expr, DerivesExpr (.level level) tokens expr ∧
      (∀ token ∈ tokens, token.kind.IsSpelled) ∧ expr.nesting ≤ cost ∧
        expr.height = height + count ∧ expr.chainLength level = count := by
  induction count with
  | zero =>
      obtain ⟨tokens, expr, hderives, hspelled, hcost, hheight⟩ := hoperand
      have hchain := hderives.chainLength_of_tighter (tighter_operands level)
      exact ⟨tokens, expr, .ofOperand level hderives, hspelled, hcost, hheight, hchain⟩
  | succ count ih =>
      obtain ⟨tokens, expr, hderives, hspelled, hcost, hheight, hchain⟩ :=
        ih (Nat.le_of_succ_le hcount)
      have hop : ∃ op : BinaryOp, op.precedence = level := by
        cases level with
        | product => exact ⟨.mul, rfl⟩
        | sum => exact ⟨.add, rfl⟩
        | comparison => exact ⟨.less, rfl⟩
        | equality => exact ⟨.equal, rfl⟩
        | conjunction => exact ⟨.and, rfl⟩
        | disjunction => exact ⟨.or, rfl⟩
      obtain ⟨op, rfl⟩ := hop
      refine ⟨_, _, .binary {} op hderives (.toOperand (.integer {} "1") _), ?_, ?_, ?_, ?_⟩
      · rw [List.forall_mem_append, List.forall_mem_cons, List.forall_mem_singleton]
        exact ⟨hspelled, isSpelled_symbol _, isSpelled_one⟩
      · rw [Expr.nesting, hchain]
        exact Nat.max_le.mpr ⟨hcost, hcount⟩
      · have hleft : max expr.height (Expr.integer {} "1").height = expr.height :=
          Nat.max_eq_left expr.one_le_height
        rw [Expr.height, hleft, hheight, Nat.add_assoc]
      · rw [Expr.chainLength, if_pos rfl, hchain]

theorem Reaches.chain (level : Precedence) {cost height : Nat}
    (hoperand : Reaches (operands level) cost height) :
    Reaches (.level level) cost (height + cost) := by
  obtain ⟨tokens, expr, hderives, hspelled, hcost, hheight, _⟩ :=
    exists_chain hoperand cost (Nat.le_refl cost)
  exact ⟨tokens, expr, hderives, hspelled, hcost, hheight⟩

/-- A full chain of each level, one inside the other. -/
theorem Reaches.chains {cost height : Nat} (hoperand : Reaches .prefixed cost height) :
    Reaches .expression cost (height + 6 * cost) := by
  have hproduct := Reaches.chain .product hoperand
  have hsum := Reaches.chain .sum hproduct
  have hcomparison := Reaches.chain .comparison hsum
  have hequality := Reaches.chain .equality hcomparison
  have hconjunction := Reaches.chain .conjunction hequality
  have hdisjunction := Reaches.chain .disjunction hconjunction
  obtain ⟨tokens, expr, hderives, hspelled, hcost, hheight⟩ := hdisjunction
  refine ⟨tokens, expr, .ofChain hderives, hspelled, hcost, ?_⟩
  rw [hheight]
  omega

theorem reaches_highestPrefixed (cost : Nat) :
    Reaches .prefixed cost (highestPrefixed cost) := by
  induction cost using highestPrefixed.induct with
  | case5 cost ih =>
      rw [highestPrefixed]
      rcases Nat.le_total (cost + 5) (highestPrefixed cost + 6 * cost + 1) with hle | hle
      · rw [Nat.max_eq_right hle]
        exact ih.chains.paren
      · rw [Nat.max_eq_left hle]
        exact reaches_operators (cost + 4)
  | _ => exact reaches_operators _

theorem reaches_highest (cost : Nat) : Reaches .expression cost (highest cost) :=
  (reaches_highestPrefixed cost).chains

/-! ## Programs -/

theorem highest_mono : Monotone highest := by
  intro cost more hmore
  exact Nat.add_le_add (highestPrefixed_mono hmore) (Nat.mul_le_mul_left 6 hmore)

theorem highest_budget : highest (nestingBudget - constructCost) = 48451 := by
  decide +kernel

theorem highest_le_of_budget {cost : Nat} (hcost : constructCost + cost ≤ nestingBudget) :
    highest cost ≤ 48451 := by
  have hleft : cost ≤ nestingBudget - constructCost := Nat.le_sub_of_add_le' hcost
  calc
    highest cost ≤ highest (nestingBudget - constructCost) := highest_mono hleft
    _ = 48451 := highest_budget

/-- For every cost within the budget, a source without errors holds an expression that
costs no more and is as high as that cost allows. -/
theorem exists_highest {cost : Nat} (hcost : constructCost + cost ≤ nestingBudget) :
    ∃ source : List Char, (parse source).errors = [] ∧
      ∃ item ∈ (parse source).program.items, ∃ site : Expr,
        item.HasSite site ∧ site.nesting ≤ cost ∧ site.height = highest cost := by
  obtain ⟨tokens, expr, hderives, hspelled, hspent, hheight⟩ := reaches_highest cost
  obtain ⟨hclean, span, copy, hitems, hcopy⟩ := parse_text_of_derives hderives hspelled
    (Nat.le_trans (Nat.add_le_add_left hspent _) hcost)
  refine ⟨_, hclean, .expression span copy, ?_, copy, rfl, ?_, ?_⟩
  · rw [hitems]
    exact List.mem_singleton_self _
  · rwa [← Expr.nesting_bare, hcopy, Expr.nesting_bare]
  · rw [← Expr.height_bare, hcopy, Expr.height_bare, hheight]

/-- What the nesting budget bounds is the cost of the expressions of a program.  Their
height stays within it as long as cost and overhang do.  Otherwise it has a much greater
bound, and programs without errors attain it at every cost. -/
theorem height_le_of_parse {source : List Char} {item : Item} {site node : Expr}
    (hitem : item ∈ (parse source).program.items) (hsite : item.HasSite site)
    (hnode : site.Within node) :
    constructCost + node.nesting ≤ nestingBudget ∧
      (node.nesting + node.overhang < nestingBudget → node.height ≤ nestingBudget) ∧
      node.height ≤ highest node.nesting ∧ highest node.nesting ≤ 48451 ∧
      ∃ other : List Char, (parse other).errors = [] ∧
        ∃ item ∈ (parse other).program.items, ∃ site : Expr, item.HasSite site ∧
          site.nesting ≤ node.nesting ∧ site.height = highest node.nesting := by
  have hread := readAmong_of_parse hitem hsite hnode
  obtain ⟨phrase, _, hderives⟩ := hread.phrase
  have hwithin : node.nesting + node.overhang < nestingBudget →
      node.height ≤ nestingBudget := by
    intro hcost
    exact Nat.le_trans node.height_le_nesting_add_overhang hcost
  exact ⟨hread.budget, hwithin, heightBounded hderives, highest_le_of_budget hread.budget,
    exists_highest hread.budget⟩

/-- As many minus signs as the budget allows, and a sum that goes on after they have
been given back. -/
def minusesThenSum : List Char :=
  List.replicate (nestingBudget - constructCost) '-' ++ "1+1+1+1+1;".toList

/-- An expression may be higher than the nesting budget although nothing is wrong with
its source. -/
theorem height_exceeds_budget :
    (parse minusesThenSum).errors = [] ∧
      ∃ item ∈ (parse minusesThenSum).program.items, ∃ site ∈ item.sites,
        nestingBudget < site.height := by
  decide +kernel

/-- The sum is higher than the budget, its first operand is not. -/
theorem height_le_of_parse_minuses :
    ∃ item ∈ (parse minusesThenSum).program.items, ∃ site node : Expr,
      item.HasSite site ∧ site.Within node ∧
        nestingBudget < site.height ∧ site.height ≤ highest site.nesting ∧
        constructCost + node.nesting = nestingBudget ∧ node.height ≤ nestingBudget := by
  have hfound : ∃ item ∈ (parse minusesThenSum).program.items, ∃ site ∈ item.sites,
      ∃ node ∈ site.subexpressions, nestingBudget < site.height ∧
        constructCost + node.nesting = nestingBudget ∧
        node.nesting + node.overhang < nestingBudget := by decide +kernel
  obtain ⟨item, hitem, site, hmem, node, hinner, hheight, hspent, hcost⟩ := hfound
  have hsite : item.HasSite site := Item.mem_sites_iff.mp hmem
  have hnode : site.Within node := Expr.mem_subexpressions_iff.mp hinner
  exact ⟨item, hitem, site, node, hsite, hnode, hheight,
    (height_le_of_parse hitem hsite (.self site)).2.2.1, hspent,
    (height_le_of_parse hitem hsite hnode).2.1 hcost⟩

end Parser

end DeclCheck
