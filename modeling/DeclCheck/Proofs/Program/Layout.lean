import DeclCheck.Analysis.CalledNames
import DeclCheck.Listing
import DeclCheck.Proofs.Bare

/-!
# Trees in another layout

What is read off a tree besides spans does not change when the spans are blanked:
its text, its signatures, its listings.  The walks over a tree meet the same nodes,
blanked.
-/

namespace DeclCheck

namespace Expr

mutual

@[simp]
theorem lexemes_bare : ∀ expr : Expr, expr.bare.lexemes = expr.lexemes
  | .integer .. => rfl
  | .float .. => rfl
  | .string .. => rfl
  | .boolean .. => rfl
  | .identifier .. => rfl
  | .binary span op left right => by
      rw [bare, lexemes, lexemes_bare left, lexemes_bare right, lexemes]
  | .unary span op operand => by
      rw [bare, lexemes, lexemes_bare operand, lexemes]
  | .assign span target value => by
      rw [bare, lexemes, lexemes_bare value, lexemes]
  | .call span name args => by
      rw [bare, lexemes, lexemesOfEach_bareEach args, lexemes]
  | .paren span inner => by
      rw [bare, lexemes, lexemes_bare inner, lexemes]

theorem lexemesOfEach_bareEach :
    ∀ exprs : List Expr, lexemesOfEach (bareEach exprs) = lexemesOfEach exprs
  | [] => rfl
  | first :: rest => by
      rw [bareEach, lexemesOfEach, lexemes_bare first, lexemesOfEach_bareEach rest,
        lexemesOfEach]

end

@[simp]
theorem text_bare (expr : Expr) : expr.bare.text = expr.text := by
  rw [text, lexemes_bare, text]

mutual

theorem subexpressions_bare :
    ∀ expr : Expr, expr.bare.subexpressions = expr.subexpressions.map bare
  | .integer .. => rfl
  | .float .. => rfl
  | .string .. => rfl
  | .boolean .. => rfl
  | .identifier .. => rfl
  | .binary span op left right => by
      rw [bare, subexpressions, subexpressions_bare left, subexpressions_bare right,
        subexpressions, List.map_cons, List.map_append, bare]
  | .unary span op operand => by
      rw [bare, subexpressions, subexpressions_bare operand, subexpressions,
        List.map_cons, bare]
  | .assign span target value => by
      rw [bare, subexpressions, subexpressions_bare value, subexpressions,
        List.map_cons, bare]
  | .call span name args => by
      rw [bare, subexpressions, subexpressionsOfEach_bareEach args, subexpressions,
        List.map_cons, bare]
  | .paren span inner => by
      rw [bare, subexpressions, subexpressions_bare inner, subexpressions,
        List.map_cons, bare]

theorem subexpressionsOfEach_bareEach :
    ∀ exprs : List Expr,
      subexpressionsOfEach (bareEach exprs) = (subexpressionsOfEach exprs).map bare
  | [] => rfl
  | first :: rest => by
      rw [bareEach, subexpressionsOfEach, subexpressions_bare first,
        subexpressionsOfEach_bareEach rest, subexpressionsOfEach, List.map_append]

end

theorem children_bare (expr : Expr) : expr.bare.children = expr.children.map bare := by
  cases expr with
  | call span name args => exact bareEach_eq_map args
  | _ => rfl

@[simp]
theorem callee?_bare (expr : Expr) : expr.bare.callee? = expr.callee? := by
  cases expr <;> rfl

theorem examined_bare (expr : Expr) (reach : CallReach) :
    expr.bare.examined reach = (expr.examined reach).map bare := by
  cases reach with
  | shallow => rw [examined, children_bare, examined, List.map_cons]
  | deep => exact subexpressions_bare expr

end Expr

/-! ## Statements -/

@[simp]
theorem VariableDecl.lexemes_bare (decl : VariableDecl) :
    decl.bare.lexemes = decl.lexemes := by
  cases decl with
  | mk type name init span =>
      cases init with
      | none => rfl
      | some value => simp [VariableDecl.lexemes, VariableDecl.bare]

theorem flatMap_lexemes_bare (value : Option Expr) :
    (value.map Expr.bare).toList.flatMap Expr.lexemes =
      value.toList.flatMap Expr.lexemes := by
  cases value <;> simp

mutual

theorem Stmt.lexemes_bare : ∀ stmt : Stmt, stmt.bare.lexemes = stmt.lexemes
  | .declare decl => decl.lexemes_bare
  | .evaluate span expr => by
      rw [Stmt.bare, Stmt.lexemes, Expr.lexemes_bare, Stmt.lexemes]
  | .ifThen span condition body => by
      rw [Stmt.bare, Stmt.lexemes, Expr.lexemes_bare, Block.lexemes_bare body,
        Stmt.lexemes]
  | .ifElse span condition onTrue onFalse => by
      rw [Stmt.bare, Stmt.lexemes, Expr.lexemes_bare, Block.lexemes_bare onTrue,
        Block.lexemes_bare onFalse, Stmt.lexemes]
  | .loop span condition body => by
      rw [Stmt.bare, Stmt.lexemes, Expr.lexemes_bare, Block.lexemes_bare body,
        Stmt.lexemes]
  | .leave span value => by
      rw [Stmt.bare, Stmt.lexemes, flatMap_lexemes_bare, Stmt.lexemes]
  | .nest block => by
      rw [Stmt.bare, Stmt.lexemes, Block.lexemes_bare block, Stmt.lexemes]

theorem Block.lexemes_bare : ∀ block : Block, block.bare.lexemes = block.lexemes
  | .mk span stmts => by
      rw [Block.bare, Block.lexemes, Stmt.lexemesOfEach_bareEach stmts, Block.lexemes]

theorem Stmt.lexemesOfEach_bareEach :
    ∀ stmts : List Stmt,
      Stmt.lexemesOfEach (Stmt.bareEach stmts) = Stmt.lexemesOfEach stmts
  | [] => rfl
  | first :: rest => by
      rw [Stmt.bareEach, Stmt.lexemesOfEach, Stmt.lexemes_bare first,
        Stmt.lexemesOfEach_bareEach rest, Stmt.lexemesOfEach]

end

@[simp]
theorem Block.text_bare (block : Block) : block.bare.text = block.text := by
  rw [Block.text, Block.lexemes_bare, Block.text]

theorem toList_map_bare (value : Option Expr) :
    (value.map Expr.bare).toList = value.toList.map Expr.bare := by
  cases value <;> rfl

mutual

theorem Stmt.sites_bare : ∀ stmt : Stmt, stmt.bare.sites = stmt.sites.map Expr.bare
  | .declare decl => toList_map_bare decl.init
  | .evaluate span expr => rfl
  | .ifThen span condition body => by
      rw [Stmt.bare, Stmt.sites, Block.sites_bare body, Stmt.sites, List.map_cons]
  | .ifElse span condition onTrue onFalse => by
      rw [Stmt.bare, Stmt.sites, Block.sites_bare onTrue, Block.sites_bare onFalse,
        Stmt.sites, List.map_cons, List.map_append]
  | .loop span condition body => by
      rw [Stmt.bare, Stmt.sites, Block.sites_bare body, Stmt.sites, List.map_cons]
  | .leave span value => toList_map_bare value
  | .nest block => by
      rw [Stmt.bare, Stmt.sites, Block.sites_bare block, Stmt.sites]

theorem Block.sites_bare : ∀ block : Block, block.bare.sites = block.sites.map Expr.bare
  | .mk span stmts => by
      rw [Block.bare, Block.sites, Stmt.sitesOfEach_bareEach stmts, Block.sites]

theorem Stmt.sitesOfEach_bareEach :
    ∀ stmts : List Stmt,
      Stmt.sitesOfEach (Stmt.bareEach stmts) = (Stmt.sitesOfEach stmts).map Expr.bare
  | [] => rfl
  | first :: rest => by
      rw [Stmt.bareEach, Stmt.sitesOfEach, Stmt.sites_bare first,
        Stmt.sitesOfEach_bareEach rest, Stmt.sitesOfEach, List.map_append]

end

theorem Stmt.declared?_bare (stmt : Stmt) :
    stmt.bare.declared? = stmt.declared?.map VariableDecl.bare := by
  cases stmt <;> rfl

/-! ## Functions, items and programs -/

/-- What is selected from blanked parts is the blanked selection. -/
theorem filterMap_map_of_comm {α β : Type} {select : α → Option β} {blank : α → α}
    {blankSelected : β → β}
    (hselect : ∀ part, select (blank part) = (select part).map blankSelected)
    (parts : List α) :
    (parts.map blank).filterMap select = (parts.filterMap select).map blankSelected := by
  have hcomm : select ∘ blank = fun part => (select part).map blankSelected :=
    funext hselect
  rw [List.filterMap_map, hcomm, List.map_filterMap]

namespace FunctionDecl

variable (function : FunctionDecl)

theorem parameters_bare :
    function.bare.parameters = function.parameters.map Parameter.bare := by
  cases function with
  | mk returnType name params body span => cases params <;> rfl

theorem statements_bare :
    function.bare.statements = Stmt.bareEach function.statements := by
  cases function with
  | mk returnType name params body span =>
      cases body with
      | none => rfl
      | some block =>
          cases block
          rfl

theorem locals_bare : function.bare.locals = function.locals.map VariableDecl.bare := by
  rw [locals, statements_bare, Stmt.bareEach_eq_map]
  exact filterMap_map_of_comm Stmt.declared?_bare function.statements

theorem sites_bare : function.bare.sites = function.sites.map Expr.bare := by
  rw [sites, statements_bare, Stmt.sitesOfEach_bareEach, sites]

theorem names_parameters_bare :
    function.bare.parameters.map Parameter.name =
      function.parameters.map Parameter.name := by
  rw [parameters_bare, List.map_map]
  rfl

@[simp]
theorem signature_bare :
    Signature.ofFunction function.bare = Signature.ofFunction function := by
  rw [Signature.ofFunction, parameters_bare, List.map_map]
  rfl

/-- Neither the texts nor the call pattern of a listed function know its layout. -/
theorem entry_bare :
    FunctionEntry.ofFunction function.bare = FunctionEntry.ofFunction function := by
  cases function with
  | mk returnType name params body span =>
      cases params <;> cases body <;>
        simp [FunctionEntry.ofFunction, CallPattern.ofFunction, bare,
          Function.comp_def, Parameter.bare]

end FunctionDecl

theorem VariableDecl.entry_bare (decl : VariableDecl) :
    GlobalEntry.ofVariable decl.bare = GlobalEntry.ofVariable decl := by
  cases decl with
  | mk type name init span =>
      cases init <;> simp [GlobalEntry.ofVariable, VariableDecl.bare]

theorem Item.sites_bare (item : Item) : item.bare.sites = item.sites.map Expr.bare := by
  cases item with
  | global decl => exact toList_map_bare decl.init
  | function decl => exact decl.sites_bare
  | expression span expr => rfl

theorem Item.function?_bare (item : Item) :
    item.bare.function? = item.function?.map FunctionDecl.bare := by
  cases item <;> rfl

theorem Item.global?_bare (item : Item) :
    item.bare.global? = item.global?.map VariableDecl.bare := by
  cases item <;> rfl

namespace Program

variable (program : Program)

theorem functions_bare :
    program.bare.functions = program.functions.map FunctionDecl.bare :=
  filterMap_map_of_comm Item.function?_bare program.items

theorem globals_bare : program.bare.globals = program.globals.map VariableDecl.bare :=
  filterMap_map_of_comm Item.global?_bare program.items

theorem functionEntries_bare : program.bare.functionEntries = program.functionEntries := by
  rw [functionEntries, functions_bare, List.map_map, functionEntries]
  exact List.map_congr_left fun function _ => function.entry_bare

theorem globalEntries_bare : program.bare.globalEntries = program.globalEntries := by
  rw [globalEntries, globals_bare, List.map_map, globalEntries]
  exact List.map_congr_left fun decl _ => decl.entry_bare

end Program

end DeclCheck
