import DeclCheck.Listing
import DeclCheck.Proofs.Report.CompactText

/-!
# Functions that call themselves

The compact text of a node holds the compact texts of all nodes inside it, each in one
piece.  A function is listed as recursive by a search for its name in the text of its
body; since the text of a call begins with the name that is called, the search misses no
call of the function to itself, however deep it stands.
-/

namespace DeclCheck

/-! ## Lexemes of parts -/

theorem infix_intercalate_of_mem {α : Type} (separator : List α) {part : List α}
    {parts : List (List α)} (hmem : part ∈ parts) : part <:+: separator.intercalate parts := by
  obtain ⟨place, hplace⟩ := List.getElem?_of_mem hmem
  have hspaced : (parts.intersperse separator)[2 * place]? = some part :=
    List.getElem?_intersperse_two_mul.trans hplace
  exact List.infix_of_mem_flatten (List.mem_of_getElem? hspaced)

theorem Expr.mem_lexemesOfEach {args : List Expr} {arg : Expr} (hmem : arg ∈ args) :
    arg.lexemes ∈ lexemesOfEach args := by
  induction args with
  | nil => cases hmem
  | cons first rest ih =>
      rw [lexemesOfEach, List.mem_cons]
      rcases List.mem_cons.mp hmem with rfl | hrest
      · exact .inl rfl
      · exact .inr (ih hrest)

/-- An expression writes each of its children in one piece. -/
theorem Expr.lexemes_infix_of_child {outer inner : Expr} (hinner : inner ∈ outer.children) :
    inner.lexemes <:+: outer.lexemes := by
  cases outer with
  | binary span op left right =>
      rw [lexemes]
      rcases List.mem_pair.mp hinner with rfl | rfl
      · exact (List.prefix_append _ _).isInfix
      · exact ((List.suffix_cons _ _).trans (List.suffix_append _ _)).isInfix
  | unary span op operand =>
      rw [List.mem_singleton.mp hinner, lexemes]
      exact (List.suffix_cons _ _).isInfix
  | assign span target value =>
      rw [List.mem_singleton.mp hinner, lexemes]
      exact ((List.suffix_cons _ _).trans (List.suffix_cons _ _)).isInfix
  | call span name args =>
      have hargs : inner.lexemes <:+: [Symbol.comma.spelling].intercalate (lexemesOfEach args) :=
        infix_intercalate_of_mem _ (mem_lexemesOfEach hinner)
      rw [lexemes]
      exact hargs.trans ((List.prefix_append _ _).isInfix.trans
        ((List.suffix_cons _ _).trans (List.suffix_cons _ _)).isInfix)
  | paren span own =>
      rw [List.mem_singleton.mp hinner, lexemes]
      exact (List.prefix_append _ _).isInfix.trans (List.suffix_cons _ _).isInfix
  | _ => cases hinner

theorem VariableDecl.lexemes_infix_of_init {decl : VariableDecl} {value : Expr}
    (hvalue : value ∈ decl.init.toList) : value.lexemes <:+: decl.lexemes := by
  rw [lexemes, Option.mem_toList.mp hvalue]
  exact (List.suffix_cons _ _).isInfix.trans ((List.prefix_append _ _).isInfix.trans
    ((List.suffix_cons _ _).trans (List.suffix_cons _ _)).isInfix)

/-- A statement writes each of its own expressions in one piece. -/
theorem Stmt.lexemes_infix_of_ownExprs {stmt : Stmt} {expr : Expr}
    (hexpr : expr ∈ stmt.ownExprs) : expr.lexemes <:+: stmt.lexemes := by
  have hcondition (head : List String) (after : List String) :
      expr.lexemes <:+: head ++ (expr.lexemes ++ after) :=
    (List.prefix_append _ _).isInfix.trans (List.suffix_append _ _).isInfix
  cases stmt with
  | declare decl =>
      rw [lexemes]
      exact VariableDecl.lexemes_infix_of_init hexpr
  | evaluate span own =>
      rw [← List.mem_singleton.mp hexpr, lexemes]
      exact (List.prefix_append _ _).isInfix
  | ifThen span condition body =>
      rw [← List.mem_singleton.mp hexpr, lexemes]
      exact hcondition [_, _] _
  | ifElse span condition onTrue onFalse =>
      rw [← List.mem_singleton.mp hexpr, lexemes]
      exact hcondition [_, _] _
  | loop span condition body =>
      rw [← List.mem_singleton.mp hexpr, lexemes]
      exact hcondition [_, _] _
  | leave span value =>
      rw [lexemes, Option.mem_toList.mp hexpr, Option.toList_some, List.flatMap_singleton]
      exact hcondition [_] _
  | nest block => cases hexpr

/-- A statement writes each of its own blocks in one piece. -/
theorem Stmt.lexemes_infix_of_ownBlocks {stmt : Stmt} {block : Block}
    (hblock : block ∈ stmt.ownBlocks) : block.lexemes <:+: stmt.lexemes := by
  have hafter (head : List String) {middle after : List String}
      (hpart : block.lexemes <:+: after) : block.lexemes <:+: head ++ (middle ++ after) :=
    hpart.trans ((List.suffix_append _ _).trans (List.suffix_append _ _)).isInfix
  cases stmt with
  | ifThen span condition body =>
      rw [← List.mem_singleton.mp hblock, lexemes]
      exact hafter [_, _] (List.suffix_cons _ _).isInfix
  | ifElse span condition onTrue onFalse =>
      rw [lexemes]
      apply hafter [_, _]
      rcases List.mem_pair.mp hblock with rfl | rfl
      · exact (List.prefix_append _ _).isInfix.trans (List.suffix_cons _ _).isInfix
      · exact ((List.suffix_cons _ _).trans
          ((List.suffix_append _ _).trans (List.suffix_cons _ _))).isInfix
  | loop span condition body =>
      rw [← List.mem_singleton.mp hblock, lexemes]
      exact hafter [_, _] (List.suffix_cons _ _).isInfix
  | nest own => rw [List.mem_singleton.mp hblock, lexemes]
  | _ => cases hblock

theorem Stmt.lexemes_infix_lexemesOfEach {stmts : List Stmt} {stmt : Stmt}
    (hmem : stmt ∈ stmts) : stmt.lexemes <:+: Stmt.lexemesOfEach stmts := by
  induction stmts with
  | nil => cases hmem
  | cons first rest ih =>
      rw [Stmt.lexemesOfEach]
      rcases List.mem_cons.mp hmem with rfl | hrest
      · exact (List.prefix_append _ _).isInfix
      · exact (ih hrest).trans (List.suffix_append _ _).isInfix

theorem Block.lexemes_infix_of_stmts {block : Block} {stmt : Stmt} (hmem : stmt ∈ block.stmts) :
    stmt.lexemes <:+: block.lexemes := by
  cases block with
  | mk span stmts =>
      rw [Block.lexemes]
      exact (Stmt.lexemes_infix_lexemesOfEach hmem).trans
        ((List.prefix_append _ _).isInfix.trans (List.suffix_cons _ _).isInfix)

namespace Node

/-- The node is of a kind that has a text, and its lexemes stand together among the given
ones. -/
def WrittenIn (lexemes : List String) : Node → Prop
  | variableDecl decl => decl.lexemes <:+: lexemes
  | block own => own.lexemes <:+: lexemes
  | stmt own => own.lexemes <:+: lexemes
  | expr own => own.lexemes <:+: lexemes
  | _ => False

/-- What is written in one piece has its children written so. -/
theorem WrittenIn.child {lexemes : List String} {outer inner : Node}
    (houter : outer.WrittenIn lexemes) (hinner : inner ∈ outer.children) :
    inner.WrittenIn lexemes := by
  cases outer with
  | variableDecl decl =>
      obtain ⟨value, hvalue, rfl⟩ := List.mem_map.mp hinner
      exact (VariableDecl.lexemes_infix_of_init hvalue).trans houter
  | block own =>
      obtain ⟨stmt, hstmt, rfl⟩ := List.mem_map.mp hinner
      exact (Block.lexemes_infix_of_stmts hstmt).trans houter
  | stmt own =>
      rcases cases_of_mem_children_stmt hinner with
        ⟨decl, rfl, rfl⟩ | ⟨expr, hexpr, rfl⟩ | ⟨block, hblock, rfl⟩
      · rwa [WrittenIn, Stmt.lexemes] at houter
      · exact (Stmt.lexemes_infix_of_ownExprs hexpr).trans houter
      · exact (Stmt.lexemes_infix_of_ownBlocks hblock).trans houter
  | expr own =>
      obtain ⟨child, hchild, rfl⟩ := List.mem_map.mp hinner
      exact (Expr.lexemes_infix_of_child hchild).trans houter
  | _ => cases houter

/-- What is written in one piece has all nodes inside it written so. -/
theorem WrittenIn.within {lexemes : List String} {outer node : Node}
    (hwithin : outer.Within node) : outer.WrittenIn lexemes → node.WrittenIn lexemes := by
  induction hwithin with
  | self node => exact id
  | child hinner _ ih => exact fun houter => ih (houter.child hinner)

end Node

/-! ## Texts of parts -/

theorem join_infix_join {part whole : List String} (hpart : part <:+: whole) :
    (String.join part).toList <:+: (String.join whole).toList := by
  obtain ⟨before, after, rfl⟩ := hpart
  rw [String.toList_join, String.toList_join, List.flatMap_append, List.flatMap_append]
  exact List.infix_append _ _ _

/-- The text of an expression stands in the text of each block around it. -/
theorem text_infix_of_within {body : Block} {expr : Expr}
    (hwithin : (Node.block body).Within (.expr expr)) :
    expr.text.toList <:+: body.text.toList := by
  have hwritten : (Node.block body).WrittenIn body.lexemes := List.infix_refl _
  exact join_infix_join (hwritten.within hwithin)

theorem name_prefix_text_of_callee {call : Expr} {name : String}
    (hcallee : call.callee? = some name) : name.toList <+: call.text.toList := by
  cases call with
  | call span own args =>
      cases hcallee
      rw [Expr.text, Expr.lexemes, String.toList_join, List.flatMap_cons]
      exact List.prefix_append _ _
  | _ => cases hcallee

/-! ## The search for a name -/

/-- The search finds a part exactly where the text holds it in one piece. -/
theorem occursIn_iff_infix {part text : List Char} :
    occursIn part text = true ↔ part <:+: text := by
  induction text with
  | nil => rw [occursIn, List.isEmpty_iff, List.infix_nil]
  | cons c rest ih =>
      rw [occursIn, Bool.or_eq_true, List.isPrefixOf_iff_prefix, ih, List.infix_cons_iff]

/-- The text of every expression in the body of a function stands in the text of the body,
and a function whose body holds a call to itself is listed as recursive. -/
theorem recursive_of_selfCall (function : FunctionDecl) {body : Block}
    (hbody : function.body = some body) :
    (∀ expr, (Node.block body).Within (.expr expr) →
      expr.text.toList <:+: body.text.toList) ∧
    ((∃ call, (Node.block body).Within (.expr call) ∧ call.callee? = some function.name) →
      (FunctionEntry.ofFunction function).pattern = .recursive) := by
  refine ⟨fun expr => text_infix_of_within, ?_⟩
  rintro ⟨call, hwithin, hcallee⟩
  have hname : function.name.toList <:+: body.text.toList :=
    (name_prefix_text_of_callee hcallee).isInfix.trans (text_infix_of_within hwithin)
  have hfound : occursIn function.name.toList body.text.toList = true :=
    occursIn_iff_infix.mpr hname
  simp only [FunctionEntry.ofFunction, CallPattern.ofFunction, hbody, hfound, if_true]

/-- A call to itself that is the second argument of a call, in the condition of a statement
in a nested block. -/
theorem recursive_of_selfCall_argument :
    let call : Expr := .call {} "f" []
    let condition : Expr := .unary {} .not (.call {} "g" [.integer {} "1", call])
    let body : Block := .mk {} [.nest (.mk {} [.ifThen {} condition (.mk {} [])])]
    let function : FunctionDecl :=
      { returnType := "list", name := "f", params := none, body := some body, span := {} }
    (Node.block body).Within (.expr call) ∧ call.callee? = some function.name ∧
      call.text = "f()" ∧ body.text = "\x7b\x7bif(!g(1,f()))\x7b\x7d\x7d\x7d" ∧
      call.text.toList <:+: body.text.toList ∧
      (FunctionEntry.ofFunction function).pattern = .recursive := by
  intro call condition body function
  have hcondition : (Node.expr condition).Within (.expr call) :=
    .child List.mem_cons_self (.child (List.mem_cons_of_mem _ List.mem_cons_self) (.self _))
  have hwithin : (Node.block body).Within (.expr call) :=
    .child List.mem_cons_self (.child List.mem_cons_self
      (.child List.mem_cons_self (.child List.mem_cons_self hcondition)))
  obtain ⟨htext, hrecursive⟩ := recursive_of_selfCall function rfl
  exact ⟨hwithin, rfl, by decide +kernel, by decide +kernel, htext call hwithin,
    hrecursive ⟨call, hwithin, rfl⟩⟩

end DeclCheck
