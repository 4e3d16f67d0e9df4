import DeclCheck.Proofs.Analysis.Runs
import DeclCheck.Proofs.Program.Placement
import DeclCheck.Proofs.Program.Sites

/-!
# Filings are about nodes

Whatever is filed about a program has the span of one of its nodes: that of a
declaration, or that of a call.
-/

namespace DeclCheck

namespace Node

theorem Within.trans {outer middle node : Node} (hmiddle : outer.Within middle)
    (hnode : middle.Within node) : outer.Within node := by
  induction hmiddle with
  | self => exact hnode
  | child hinner _ ih => exact .child hinner (ih hnode)

theorem within_of_child {outer node : Node} (hchild : node ∈ outer.children) :
    outer.Within node :=
  .child hchild (.self node)

/-! ## Where expressions and declarations stand -/

theorem within_of_expr {outer expr : Expr} (hwithin : outer.Within expr) :
    (Node.expr outer).Within (.expr expr) := by
  induction hwithin with
  | self expr => exact .self _
  | child hinner _ ih => exact .child (List.mem_map_of_mem hinner) ih

theorem within_of_ownExprs {stmt : Stmt} {expr : Expr} (hexpr : expr ∈ stmt.ownExprs) :
    (Node.stmt stmt).Within (.expr expr) := by
  cases stmt with
  | declare decl =>
      have hvalue : Node.expr expr ∈ (Node.variableDecl decl).children :=
        List.mem_map_of_mem hexpr
      exact .child List.mem_cons_self (within_of_child hvalue)
  | _ => exact within_of_child (List.mem_append_left _ (List.mem_map_of_mem hexpr))

theorem block_mem_children {stmt : Stmt} {block : Block} (hblock : block ∈ stmt.ownBlocks) :
    Node.block block ∈ (Node.stmt stmt).children := by
  cases stmt with
  | declare decl => cases hblock
  | _ => exact List.mem_append_right _ (List.mem_map_of_mem hblock)

theorem within_of_holds {stmt : Stmt} {expr : Expr} (hholds : stmt.Holds expr) :
    (Node.stmt stmt).Within (.expr expr) := by
  induction hholds with
  | own hexpr => exact within_of_ownExprs hexpr
  | inner hblock hheld _ ih =>
      exact .child (block_mem_children hblock) (.child (List.mem_map_of_mem hheld) ih)

theorem within_of_statements {function : FunctionDecl} {stmt : Stmt}
    (hstmt : stmt ∈ function.statements) :
    (Node.item (.function function)).Within (.stmt stmt) := by
  rw [FunctionDecl.statements] at hstmt
  split at hstmt
  · rename_i body hbody
    have hblock : Node.block body ∈ (Node.functionDecl function).children := by
      simp [children, hbody]
    exact .child List.mem_cons_self
      (.child hblock (within_of_child (List.mem_map_of_mem hstmt)))
  · cases hstmt

theorem within_of_locals {function : FunctionDecl} {decl : VariableDecl}
    (hdecl : decl ∈ function.locals) :
    (Node.item (.function function)).Within (.variableDecl decl) := by
  obtain ⟨stmt, hstmt, hdeclared⟩ := List.mem_filterMap.mp hdecl
  refine (within_of_statements hstmt).trans (within_of_child ?_)
  cases stmt with
  | declare own =>
      cases hdeclared
      exact List.mem_cons_self
  | _ => cases hdeclared

theorem within_of_hasSite {item : Item} {expr : Expr} (hsite : item.HasSite expr) :
    (Node.item item).Within (.expr expr) := by
  cases item with
  | global decl =>
      have hvalue : Node.expr expr ∈ (Node.variableDecl decl).children :=
        List.mem_map_of_mem (Option.mem_toList.mpr hsite)
      exact .child List.mem_cons_self (within_of_child hvalue)
  | function decl =>
      obtain ⟨stmt, hstmt, hholds⟩ := hsite
      exact (within_of_statements hstmt).trans (within_of_holds hholds)
  | expression span own =>
      cases hsite
      exact within_of_child List.mem_cons_self

end Node

/-! ## Filings -/

theorem VariableDecl.span_of_mem_valueFilings {decl : VariableDecl} {filing : Filing}
    (hmem : filing ∈ decl.valueFilings) : filing.span = decl.span := by
  rw [VariableDecl.valueFilings] at hmem
  split at hmem
  · split at hmem
    · cases hmem
    · rw [List.mem_singleton.mp hmem]
  · cases hmem

theorem VariableDecl.span_of_mem_globalFilings {decl : VariableDecl} {repeated : Bool}
    {filing : Filing} (hmem : filing ∈ decl.globalFilings repeated) :
    filing.span = decl.span := by
  rcases List.mem_append.mp hmem with hmem | hmem
  · rw [eq_of_mem_ite hmem]
  · exact span_of_mem_valueFilings hmem

theorem VariableDecl.span_of_mem_localFilings {function : FunctionDecl} {decl : VariableDecl}
    {repeated : Bool} {filing : Filing} (hmem : filing ∈ decl.localFilings function repeated) :
    filing.span = decl.span := by
  rcases List.mem_append.mp hmem with hmem | hmem <;> rw [eq_of_mem_ite hmem]

theorem Item.exists_node_of_mem_filings {reach : CallReach} {defined : String → Bool}
    {item : Item} {filing : Filing} (hmem : filing ∈ item.filings reach defined) :
    ∃ node, (Node.item item).Within node ∧ filing.span = node.span := by
  rcases List.mem_append.mp hmem with hmem | hmem
  · cases item with
    | function decl =>
        simp only [Item.function?, Option.toList_some, List.flatMap_singleton] at hmem
        obtain ⟨flagged, hflagged, hfiling⟩ := List.mem_flatMap.mp hmem
        exact ⟨_, Node.within_of_locals (mem_of_mem_flagRepeats hflagged),
          VariableDecl.span_of_mem_localFilings hfiling⟩
    | _ => cases hmem
  · obtain ⟨call, hcall, hfiling⟩ := List.mem_filterMap.mp hmem
    obtain ⟨site, hsite, hexamined⟩ := List.mem_flatMap.mp hcall
    obtain ⟨name, _, rfl⟩ := Option.map_eq_some_iff.mp hfiling
    refine ⟨.expr call, ?_, rfl⟩
    exact (Node.within_of_hasSite (Item.mem_sites_iff.mp hsite)).trans
      (Node.within_of_expr (Expr.within_of_mem_examined hexamined))

theorem Program.hasNode_of_function {program : Program} {function : FunctionDecl}
    (hmem : function ∈ program.functions) : program.HasNode (.functionDecl function) :=
  ⟨_, mem_functions_iff.mp hmem, Node.within_of_child List.mem_cons_self⟩

theorem Program.hasNode_of_global {program : Program} {decl : VariableDecl}
    (hmem : decl ∈ program.globals) : program.HasNode (.variableDecl decl) :=
  ⟨_, mem_globals_iff.mp hmem, Node.within_of_child List.mem_cons_self⟩

/-- What is filed about a program has the span of a node of the program. -/
theorem Program.exists_node_of_mem_filings {program : Program} {reach : CallReach}
    {filing : Filing} (hmem : filing ∈ program.filings reach) :
    ∃ node, program.HasNode node ∧ filing.span = node.span := by
  rcases List.mem_append.mp hmem with hmem | hmem
  · rcases List.mem_append.mp hmem with hmem | hmem
    · obtain ⟨flagged, hflagged, hfiling⟩ := List.mem_flatMap.mp hmem
      refine ⟨_, hasNode_of_function (mem_of_mem_flagRepeats hflagged), ?_⟩
      rw [eq_of_mem_ite hfiling]
      rfl
    · obtain ⟨flagged, hflagged, hfiling⟩ := List.mem_flatMap.mp hmem
      exact ⟨_, hasNode_of_global (mem_of_mem_flagRepeats hflagged),
        VariableDecl.span_of_mem_globalFilings hfiling⟩
  · obtain ⟨item, hitem, hfiling⟩ := List.mem_flatMap.mp hmem
    obtain ⟨node, hwithin, hspan⟩ := Item.exists_node_of_mem_filings hfiling
    exact ⟨node, ⟨item, hitem, hwithin⟩, hspan⟩

end DeclCheck
