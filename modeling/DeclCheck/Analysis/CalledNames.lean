import DeclCheck.Analysis.Finding

/-!
# Checking the names that are called

Every call must name a function of the program.  Only the name counts: neither
the number nor the types of the arguments are compared with a signature.
-/

namespace DeclCheck

/-- How far below an expression calls are looked for. -/
inductive CallReach where
  | shallow
  | deep
  deriving DecidableEq, Repr

/-- The nodes that are looked at for an expression, in order: itself and its
direct children, or everything inside it. -/
def Expr.examined (expr : Expr) : CallReach → List Expr
  | .shallow => expr :: expr.children
  | .deep => expr.subexpressions

/-- The function that a node calls although no function has that name. -/
def undefinedCallee? (scope : ProgramScope) (node : Expr) : Option String :=
  node.callee?.filter fun name => !scope.knowsFunction name

/-- A check that adds its findings to a log.  If it is stopped, it answers the
number of the finding at which it was. -/
abbrev CallCheck := DiagnosticLog → Option Nat × DiagnosticLog

namespace CallCheck

/-- The check of nothing. -/
def skip : CallCheck := fun log => (none, log)

/-- One check after the other.  The second is left out if the first is stopped. -/
def andThen (first second : CallCheck) : CallCheck := fun log =>
  match first log with
  | (some number, filed) => (some number, filed)
  | (none, filed) => second filed

/-- The checks of some things, one after the other. -/
def each {α : Type} (check : α → CallCheck) : List α → CallCheck
  | [] => skip
  | first :: rest => (check first).andThen (each check rest)

end CallCheck

/-- Files the undefined calls among some nodes.  With `stop` the first one ends
the check, and its number is answered. -/
def checkCalls (scope : ProgramScope) (stop : Bool) : List Expr → CallCheck
  | [], log => (none, log)
  | node :: rest, log =>
      match undefinedCallee? scope node with
      | none => checkCalls scope stop rest log
      | some name =>
          let filed := log.file (.undefinedCall name) node.span
          if stop then (some log.nextId, filed)
          else checkCalls scope stop rest filed

/-- Checks the calls of one expression. -/
def checkSite (scope : ProgramScope) (reach : CallReach) (stop : Bool)
    (site : Expr) : CallCheck :=
  checkCalls scope stop (site.examined reach)

mutual

/-- Checks the expressions of a statement: its own first, then those of its
blocks. -/
def Stmt.walk (check : Expr → CallCheck) : Stmt → CallCheck
  | .declare decl => .each check decl.init.toList
  | .evaluate _ expr => check expr
  | .ifThen _ condition body => (check condition).andThen (body.walk check)
  | .ifElse _ condition onTrue onFalse =>
      (check condition).andThen ((onTrue.walk check).andThen (onFalse.walk check))
  | .loop _ condition body => (check condition).andThen (body.walk check)
  | .leave _ value => .each check value.toList
  | .nest block => block.walk check

/-- Checks the expressions of a block, statement after statement. -/
def Block.walk (check : Expr → CallCheck) : Block → CallCheck
  | .mk _ stmts => Stmt.walkEach check stmts

/-- Checks the expressions of some statements, one statement after the other. -/
def Stmt.walkEach (check : Expr → CallCheck) : List Stmt → CallCheck
  | [] => .skip
  | first :: rest => (first.walk check).andThen (Stmt.walkEach check rest)

end

/-- Checks the expressions of an item.  A function without a body has none. -/
def Item.walk (check : Expr → CallCheck) : Item → CallCheck
  | .global decl => .each check decl.init.toList
  | .function decl =>
      match decl.body with
      | some body => body.walk check
      | none => .skip
  | .expression _ expr => check expr

/-- Checks the calls of one item. -/
def checkItemCalls (scope : ProgramScope) (reach : CallReach) (stop : Bool)
    (item : Item) : CallCheck :=
  item.walk (checkSite scope reach stop)

/-! ## Sites -/

/-- The expressions that an item holds, at any block depth. -/
def Item.sites : Item → List Expr
  | .global decl => decl.init.toList
  | .function decl => decl.sites
  | .expression _ expr => [expr]

/-- The nodes that are looked at for some expressions, one expression after the
other. -/
def examinedNodes (reach : CallReach) (sites : List Expr) : List Expr :=
  sites.flatMap (·.examined reach)

end DeclCheck
