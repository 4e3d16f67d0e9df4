import DeclCheck.Analysis.CalledNames

/-!
# Where expressions stand in a program

An expression stands inside another one if a chain of children leads to it, and a
statement holds an expression if a chain of blocks leads to it.  The walks over
trees meet exactly what stands there.  A check that goes through the blocks of an
item, and may be stopped in any of them, is the check of one list of nodes.
-/

namespace DeclCheck

namespace Expr

/-- `Within outer node` says that the node is the outer expression or stands
anywhere inside it. -/
inductive Within : Expr → Expr → Prop
  | self (node : Expr) : Within node node
  | child {outer inner node : Expr} (hinner : inner ∈ outer.children)
      (hnode : Within inner node) : Within outer node

theorem self_mem_subexpressions (expr : Expr) : expr ∈ expr.subexpressions := by
  cases expr <;> simp [subexpressions]

theorem mem_subexpressionsOfEach {exprs : List Expr} {expr node : Expr}
    (hexpr : expr ∈ exprs) (hnode : node ∈ expr.subexpressions) :
    node ∈ subexpressionsOfEach exprs := by
  induction exprs with
  | nil => cases hexpr
  | cons first rest ih =>
      rw [subexpressionsOfEach, List.mem_append]
      rcases List.mem_cons.mp hexpr with rfl | hrest
      · exact .inl hnode
      · exact .inr (ih hrest)

theorem mem_subexpressions_of_child {outer inner node : Expr}
    (hinner : inner ∈ outer.children) (hnode : node ∈ inner.subexpressions) :
    node ∈ outer.subexpressions := by
  cases outer with
  | call span name args =>
      exact List.mem_cons_of_mem _ (mem_subexpressionsOfEach hinner hnode)
  | binary span op left right =>
      rw [children, List.mem_cons, List.mem_singleton] at hinner
      rcases hinner with rfl | rfl
      · exact List.mem_cons_of_mem _ (List.mem_append_left _ hnode)
      · exact List.mem_cons_of_mem _ (List.mem_append_right _ hnode)
  | unary span op operand =>
      rw [List.mem_singleton.mp hinner] at hnode
      exact List.mem_cons_of_mem _ hnode
  | assign span target value =>
      rw [List.mem_singleton.mp hinner] at hnode
      exact List.mem_cons_of_mem _ hnode
  | paren span inner =>
      rw [List.mem_singleton.mp hinner] at hnode
      exact List.mem_cons_of_mem _ hnode
  | _ => cases hinner

mutual

theorem within_of_mem_subexpressions :
    ∀ (expr : Expr) {node : Expr}, node ∈ expr.subexpressions → Within expr node
  | .binary span op left right, node, hnode => by
      rw [subexpressions, List.mem_cons, List.mem_append] at hnode
      rcases hnode with rfl | hnode | hnode
      · exact .self _
      · exact .child (by simp [children]) (within_of_mem_subexpressions left hnode)
      · exact .child (by simp [children]) (within_of_mem_subexpressions right hnode)
  | .unary span op operand, node, hnode => by
      rcases List.mem_cons.mp hnode with rfl | hnode
      · exact .self _
      · exact .child (by simp [children]) (within_of_mem_subexpressions operand hnode)
  | .assign span target value, node, hnode => by
      rcases List.mem_cons.mp hnode with rfl | hnode
      · exact .self _
      · exact .child (by simp [children]) (within_of_mem_subexpressions value hnode)
  | .call span name args, node, hnode => by
      rcases List.mem_cons.mp hnode with rfl | hnode
      · exact .self _
      · obtain ⟨arg, harg, hwithin⟩ := within_of_mem_subexpressionsOfEach args hnode
        exact .child harg hwithin
  | .paren span inner, node, hnode => by
      rcases List.mem_cons.mp hnode with rfl | hnode
      · exact .self _
      · exact .child (by simp [children]) (within_of_mem_subexpressions inner hnode)
  | .integer .., node, hnode => List.mem_singleton.mp hnode ▸ .self _
  | .float .., node, hnode => List.mem_singleton.mp hnode ▸ .self _
  | .string .., node, hnode => List.mem_singleton.mp hnode ▸ .self _
  | .boolean .., node, hnode => List.mem_singleton.mp hnode ▸ .self _
  | .identifier .., node, hnode => List.mem_singleton.mp hnode ▸ .self _

theorem within_of_mem_subexpressionsOfEach :
    ∀ (exprs : List Expr) {node : Expr}, node ∈ subexpressionsOfEach exprs →
      ∃ expr ∈ exprs, Within expr node
  | [], node, hnode => by
      cases hnode
  | first :: rest, node, hnode => by
      rw [subexpressionsOfEach, List.mem_append] at hnode
      rcases hnode with hnode | hnode
      · exact ⟨first, List.mem_cons_self, within_of_mem_subexpressions first hnode⟩
      · obtain ⟨expr, hexpr, hwithin⟩ := within_of_mem_subexpressionsOfEach rest hnode
        exact ⟨expr, List.mem_cons_of_mem _ hexpr, hwithin⟩

end

/-- The deep walk meets what stands inside the expression, and nothing else. -/
theorem mem_subexpressions_iff {expr node : Expr} :
    node ∈ expr.subexpressions ↔ Within expr node := by
  constructor
  · exact within_of_mem_subexpressions expr
  · intro hwithin
    induction hwithin with
    | self node => exact self_mem_subexpressions node
    | child hinner _ ih => exact mem_subexpressions_of_child hinner ih

/-- `Examines reach site node` says that a check of the expression `site` looks at
the node. -/
def Examines : CallReach → Expr → Expr → Prop
  | .shallow, site, node => node = site ∨ node ∈ site.children
  | .deep, site, node => Within site node

theorem mem_examined_iff {reach : CallReach} {site node : Expr} :
    node ∈ site.examined reach ↔ Examines reach site node := by
  cases reach with
  | shallow => exact List.mem_cons
  | deep => exact mem_subexpressions_iff

theorem within_of_mem_examined {reach : CallReach} {site node : Expr}
    (hnode : node ∈ site.examined reach) : Within site node := by
  rw [mem_examined_iff] at hnode
  cases reach with
  | shallow =>
      rcases hnode with rfl | hchild
      · exact .self node
      · exact .child hchild (.self node)
  | deep => exact hnode

end Expr

/-! ## Statements -/

/-- `Stmt.Holds stmt expr` says that the expression stands in the statement
itself or in a statement of one of its blocks. -/
inductive Stmt.Holds : Stmt → Expr → Prop
  | own {stmt : Stmt} {expr : Expr} (hexpr : expr ∈ stmt.ownExprs) :
      Stmt.Holds stmt expr
  | inner {stmt held : Stmt} {block : Block} {expr : Expr}
      (hblock : block ∈ stmt.ownBlocks) (hheld : held ∈ block.stmts)
      (hexpr : Stmt.Holds held expr) : Stmt.Holds stmt expr

mutual

theorem Stmt.holds_of_mem_sites :
    ∀ (stmt : Stmt) {expr : Expr}, expr ∈ stmt.sites → stmt.Holds expr
  | .declare decl, expr, hexpr => .own (by simpa [Stmt.sites, Stmt.ownExprs] using hexpr)
  | .evaluate span value, expr, hexpr =>
      .own (by simpa [Stmt.sites, Stmt.ownExprs] using hexpr)
  | .leave span value, expr, hexpr =>
      .own (by simpa [Stmt.sites, Stmt.ownExprs] using hexpr)
  | .ifThen span condition body, expr, hexpr => by
      rw [Stmt.sites, List.mem_cons] at hexpr
      rcases hexpr with rfl | hexpr
      · exact .own (by simp [Stmt.ownExprs])
      · obtain ⟨held, hheld, hholds⟩ := Block.holds_of_mem_sites body hexpr
        exact .inner (by simp [Stmt.ownBlocks]) hheld hholds
  | .ifElse span condition onTrue onFalse, expr, hexpr => by
      rw [Stmt.sites, List.mem_cons, List.mem_append] at hexpr
      rcases hexpr with rfl | hexpr | hexpr
      · exact .own (by simp [Stmt.ownExprs])
      · obtain ⟨held, hheld, hholds⟩ := Block.holds_of_mem_sites onTrue hexpr
        exact .inner (by simp [Stmt.ownBlocks]) hheld hholds
      · obtain ⟨held, hheld, hholds⟩ := Block.holds_of_mem_sites onFalse hexpr
        exact .inner (by simp [Stmt.ownBlocks]) hheld hholds
  | .loop span condition body, expr, hexpr => by
      rw [Stmt.sites, List.mem_cons] at hexpr
      rcases hexpr with rfl | hexpr
      · exact .own (by simp [Stmt.ownExprs])
      · obtain ⟨held, hheld, hholds⟩ := Block.holds_of_mem_sites body hexpr
        exact .inner (by simp [Stmt.ownBlocks]) hheld hholds
  | .nest block, expr, hexpr => by
      rw [Stmt.sites] at hexpr
      obtain ⟨held, hheld, hholds⟩ := Block.holds_of_mem_sites block hexpr
      exact .inner (by simp [Stmt.ownBlocks]) hheld hholds

theorem Block.holds_of_mem_sites :
    ∀ (block : Block) {expr : Expr}, expr ∈ block.sites →
      ∃ stmt ∈ block.stmts, stmt.Holds expr
  | .mk span stmts, expr, hexpr => by
      rw [Block.sites] at hexpr
      exact Stmt.holds_of_mem_sitesOfEach stmts hexpr

theorem Stmt.holds_of_mem_sitesOfEach :
    ∀ (stmts : List Stmt) {expr : Expr}, expr ∈ Stmt.sitesOfEach stmts →
      ∃ stmt ∈ stmts, stmt.Holds expr
  | [], expr, hexpr => by
      simp [Stmt.sitesOfEach] at hexpr
  | first :: rest, expr, hexpr => by
      rw [Stmt.sitesOfEach, List.mem_append] at hexpr
      rcases hexpr with hexpr | hexpr
      · exact ⟨first, List.mem_cons_self, Stmt.holds_of_mem_sites first hexpr⟩
      · obtain ⟨stmt, hstmt, hholds⟩ := Stmt.holds_of_mem_sitesOfEach rest hexpr
        exact ⟨stmt, List.mem_cons_of_mem _ hstmt, hholds⟩

end

theorem Stmt.mem_sitesOfEach {stmts : List Stmt} {stmt : Stmt} {expr : Expr}
    (hstmt : stmt ∈ stmts) (hexpr : expr ∈ stmt.sites) :
    expr ∈ Stmt.sitesOfEach stmts := by
  induction stmts with
  | nil => cases hstmt
  | cons first rest ih =>
      rw [Stmt.sitesOfEach, List.mem_append]
      rcases List.mem_cons.mp hstmt with rfl | hrest
      · exact .inl hexpr
      · exact .inr (ih hrest)

theorem Stmt.mem_sites_of_block {stmt : Stmt} {block : Block} {expr : Expr}
    (hblock : block ∈ stmt.ownBlocks) (hexpr : expr ∈ block.sites) :
    expr ∈ stmt.sites := by
  cases stmt with
  | ifElse span condition onTrue onFalse =>
      rw [Stmt.sites, List.mem_cons, List.mem_append]
      rw [Stmt.ownBlocks, List.mem_cons, List.mem_singleton] at hblock
      rcases hblock with rfl | rfl
      · exact .inr (.inl hexpr)
      · exact .inr (.inr hexpr)
  | ifThen span condition body =>
      rw [List.mem_singleton.mp hblock] at hexpr
      rw [Stmt.sites]
      exact List.mem_cons_of_mem _ hexpr
  | loop span condition body =>
      rw [List.mem_singleton.mp hblock] at hexpr
      rw [Stmt.sites]
      exact List.mem_cons_of_mem _ hexpr
  | nest inner =>
      rw [List.mem_singleton.mp hblock] at hexpr
      rwa [Stmt.sites]
  | _ => cases hblock

theorem Stmt.mem_sites_of_own {stmt : Stmt} {expr : Expr}
    (hexpr : expr ∈ stmt.ownExprs) : expr ∈ stmt.sites := by
  cases stmt <;> simp_all [Stmt.ownExprs, Stmt.sites]

theorem Stmt.mem_sites_of_holds {stmt : Stmt} {expr : Expr}
    (hholds : stmt.Holds expr) : expr ∈ stmt.sites := by
  induction hholds with
  | own hexpr => exact Stmt.mem_sites_of_own hexpr
  | @inner stmt held block expr hblock hheld _ ih =>
      refine Stmt.mem_sites_of_block hblock ?_
      cases block with
      | mk span stmts =>
          rw [Block.sites]
          exact Stmt.mem_sitesOfEach hheld ih

/-! ## Items -/

theorem Program.mem_functions_iff {program : Program} {function : FunctionDecl} :
    function ∈ program.functions ↔ .function function ∈ program.items := by
  rw [functions, List.mem_filterMap]
  constructor
  · rintro ⟨item, hitem, hfunction⟩
    cases item with
    | function decl =>
        cases hfunction
        exact hitem
    | _ => cases hfunction
  · exact fun hitem => ⟨_, hitem, rfl⟩

theorem Program.mem_globals_iff {program : Program} {decl : VariableDecl} :
    decl ∈ program.globals ↔ .global decl ∈ program.items := by
  rw [globals, List.mem_filterMap]
  constructor
  · rintro ⟨item, hitem, hglobal⟩
    cases item with
    | global own =>
        cases hglobal
        exact hitem
    | _ => cases hglobal
  · exact fun hitem => ⟨_, hitem, rfl⟩

/-- `Item.HasSite item expr` says that calls are looked for in the expression
when the item is checked. -/
def Item.HasSite : Item → Expr → Prop
  | .global decl, expr => decl.init = some expr
  | .function decl, expr => ∃ stmt ∈ decl.statements, stmt.Holds expr
  | .expression _ own, expr => expr = own

theorem Item.mem_sites_iff {item : Item} {expr : Expr} :
    expr ∈ item.sites ↔ item.HasSite expr := by
  cases item with
  | global decl => exact Option.mem_toList
  | function decl =>
      constructor
      · exact Stmt.holds_of_mem_sitesOfEach decl.statements
      · rintro ⟨stmt, hstmt, hholds⟩
        exact Stmt.mem_sitesOfEach hstmt (Stmt.mem_sites_of_holds hholds)
  | expression span own => exact List.mem_singleton

/-! ## Checks -/

namespace CallCheck

variable {α : Type}

theorem andThen_assoc (first second third : CallCheck) :
    (first.andThen second).andThen third = first.andThen (second.andThen third) := by
  funext log
  simp only [andThen]
  cases first log with
  | mk stopped filed => cases stopped <;> rfl

theorem andThen_skip (check : CallCheck) : check.andThen skip = check := by
  funext log
  simp only [andThen]
  cases check log with
  | mk stopped filed => cases stopped <;> rfl

theorem each_append (check : α → CallCheck) (first second : List α) :
    each check (first ++ second) = (each check first).andThen (each check second) := by
  induction first with
  | nil => rfl
  | cons head tail ih => rw [List.cons_append, each, ih, each, andThen_assoc]

end CallCheck

section Walks

open CallCheck

variable (check : Expr → CallCheck)

mutual

/-- However deep in the blocks a walk is stopped, it is stopped in the list of the
expressions at the same one. -/
theorem Stmt.walk_eq_each : ∀ stmt : Stmt, stmt.walk check = each check stmt.sites
  | .declare decl => by rw [Stmt.walk, Stmt.sites]
  | .evaluate span expr => by rw [Stmt.walk, Stmt.sites, each, each, andThen_skip]
  | .ifThen span condition body => by
      rw [Stmt.walk, Stmt.sites, each, Block.walk_eq_each body]
  | .ifElse span condition onTrue onFalse => by
      rw [Stmt.walk, Stmt.sites, each, each_append, Block.walk_eq_each onTrue,
        Block.walk_eq_each onFalse]
  | .loop span condition body => by
      rw [Stmt.walk, Stmt.sites, each, Block.walk_eq_each body]
  | .leave span value => by rw [Stmt.walk, Stmt.sites]
  | .nest block => by rw [Stmt.walk, Stmt.sites, Block.walk_eq_each block]

theorem Block.walk_eq_each : ∀ block : Block, block.walk check = each check block.sites
  | .mk span stmts => by rw [Block.walk, Block.sites, Stmt.walkEach_eq_each stmts]

theorem Stmt.walkEach_eq_each :
    ∀ stmts : List Stmt, Stmt.walkEach check stmts = each check (Stmt.sitesOfEach stmts)
  | [] => by rw [Stmt.walkEach, Stmt.sitesOfEach, each]
  | first :: rest => by
      rw [Stmt.walkEach, Stmt.sitesOfEach, each_append, Stmt.walk_eq_each first,
        Stmt.walkEach_eq_each rest]

end

theorem Item.walk_eq_each (item : Item) : item.walk check = each check item.sites := by
  cases item with
  | global decl => rfl
  | function decl =>
      rw [Item.walk, Item.sites, FunctionDecl.sites, FunctionDecl.statements]
      cases decl.body with
      | none => rfl
      | some body =>
          cases body with
          | mk span stmts => exact Block.walk_eq_each check (.mk span stmts)
  | expression span expr => exact (andThen_skip (check expr)).symm

end Walks

theorem checkCalls_append (scope : ProgramScope) (stop : Bool) (first second : List Expr) :
    checkCalls scope stop (first ++ second) =
      CallCheck.andThen (checkCalls scope stop first) (checkCalls scope stop second) := by
  induction first with
  | nil => rfl
  | cons node rest ih =>
      funext log
      rw [List.cons_append, checkCalls, CallCheck.andThen, checkCalls]
      cases undefinedCallee? scope node with
      | none => exact congrFun ih log
      | some name =>
          cases stop with
          | true => rfl
          | false => exact congrFun ih _

/-- The check of an item is the check of all nodes that are looked at, one after the
other. -/
theorem checkItemCalls_eq (scope : ProgramScope) (reach : CallReach) (stop : Bool)
    (item : Item) :
    checkItemCalls scope reach stop item =
      checkCalls scope stop (examinedNodes reach item.sites) := by
  rw [checkItemCalls, Item.walk_eq_each]
  induction item.sites with
  | nil => rfl
  | cons site rest ih =>
      rw [CallCheck.each, ih]
      exact (checkCalls_append scope stop (site.examined reach) (examinedNodes reach rest)).symm

end DeclCheck
