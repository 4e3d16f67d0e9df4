import DeclCheck.Program
import DeclCheck.Proofs.Token.Order

/-!
# The nodes of a program and their places

Everything in a program that has a span is a node.  A node is placed on tokens if its
span reaches from the start of the first of them to the end of the last, and the nodes
inside it are placed on some of the same tokens, one after the other.  Where the tokens
follow one another in the source, the spans of a node's children therefore lie within
its own span and do not overlap.
-/

namespace DeclCheck

/-- A part of a program that has a span. -/
inductive Node where
  | item (item : Item)
  | variableDecl (decl : VariableDecl)
  | functionDecl (decl : FunctionDecl)
  | parameter (param : Parameter)
  | block (block : Block)
  | stmt (stmt : Stmt)
  | expr (expr : Expr)

namespace Node

def span : Node → Span
  | item own => own.span
  | variableDecl decl => decl.span
  | functionDecl decl => decl.span
  | parameter param => param.span
  | block own => own.span
  | stmt own => own.span
  | expr own => own.span

/-- The nodes directly inside a node, in source order. -/
def children : Node → List Node
  | item (.global decl) => [variableDecl decl]
  | item (.function decl) => [functionDecl decl]
  | item (.expression _ own) => [expr own]
  | variableDecl decl => decl.init.toList.map expr
  | functionDecl decl => decl.parameters.map parameter ++ decl.body.toList.map block
  | parameter _ => []
  | block own => own.stmts.map stmt
  | stmt (.declare decl) => [variableDecl decl]
  | stmt own => own.ownExprs.map expr ++ own.ownBlocks.map block
  | expr own => own.children.map expr

/-- `Within outer node` says that the node is the outer one or stands anywhere inside
it. -/
inductive Within : Node → Node → Prop
  | self (node : Node) : Within node node
  | child {outer inner node : Node} (hinner : inner ∈ outer.children)
      (hnode : Within inner node) : Within outer node

end Node

/-- The node stands somewhere in the program. -/
def Program.HasNode (program : Program) (node : Node) : Prop :=
  ∃ item ∈ program.items, (Node.item item).Within node

/-! ## Spans of tokens -/

/-- The span reaches from the start of the first token to the end of the last one. -/
structure Spans (tokens : List Token) (span : Span) : Prop where
  starts : ∃ first, tokens.head? = some first ∧ span.start = first.span.start ∧
    span.line = first.span.line ∧ span.column = first.span.column
  stops : ∃ last, tokens.getLast? = some last ∧ span.stop = last.span.stop

theorem spans_single (token : Token) : Spans [token] token.span where
  starts := ⟨token, rfl, rfl, rfl, rfl⟩
  stops := ⟨token, rfl, rfl⟩

/-- The region that covers the first and the last part of some tokens covers them all. -/
theorem Spans.cover {first last : List Token} {one other : Span} (hfirst : Spans first one)
    (middle : List Token) (hlast : Spans last other) {offset : Nat}
    (horder : InOrder offset (first ++ (middle ++ last))) :
    Spans (first ++ (middle ++ last)) (one.cover other) := by
  obtain ⟨⟨head, hhead, hstart, hline, hcolumn⟩, ⟨before, hbefore, hbeforeStop⟩⟩ := hfirst
  obtain ⟨⟨after, hafter, hafterStart, _⟩, ⟨back, hback, hstop⟩⟩ := hlast
  -- `cover` takes the smaller start and the larger stop: as the tokens are in order,
  -- these are the start of the first part and the stop of the last
  have hheadMem : head ∈ first := List.mem_of_mem_head? hhead
  have hbackMem : back ∈ middle ++ last :=
    List.mem_append_right _ (List.mem_of_mem_getLast? hback)
  constructor
  · refine ⟨head, by simp [hhead], ?_, hline, hcolumn⟩
    have hnonempty := horder.nonempty head (List.mem_append_left _ hheadMem)
    have happart := horder.stop_le_start hheadMem
      (List.mem_append_right _ (List.mem_of_mem_head? hafter))
    simp only [Span.cover]
    omega
  · refine ⟨back, by simp [hback], ?_⟩
    have hnonempty := horder.nonempty back (List.mem_append_right _ hbackMem)
    have happart := horder.stop_le_start (List.mem_of_mem_getLast? hbefore) hbackMem
    simp only [Span.cover]
    omega

namespace Spans

variable {tokens : List Token} {span : Span}

/-- There is a token at either end. -/
theorem exists_tokens (hspans : Spans tokens span) :
    ∃ first ∈ tokens, ∃ last ∈ tokens, tokens.head? = some first ∧
      tokens.getLast? = some last ∧ span.start = first.span.start ∧
      span.stop = last.span.stop ∧ span.line = first.span.line ∧
      span.column = first.span.column := by
  obtain ⟨⟨first, hfirst, hstart, hline, hcolumn⟩, ⟨last, hlast, hstop⟩⟩ := hspans
  exact ⟨first, List.mem_of_mem_head? hfirst, last, List.mem_of_mem_getLast? hlast, hfirst,
    hlast, hstart, hstop, hline, hcolumn⟩

/-- The span of some of the tokens is within the span of all. -/
theorem contains {own : List Token} {inner : Span} {offset : Nat} (hspans : Spans tokens span)
    (hinner : Spans own inner) (hown : own <:+: tokens) (horder : InOrder offset tokens) :
    span.start ≤ inner.start ∧ inner.stop ≤ span.stop := by
  obtain ⟨head, _, last, _, hhead, hlast, hstart, hstop, _⟩ := hspans.exists_tokens
  obtain ⟨first, hfirst, back, hback, _, _, hinnerStart, hinnerStop, _⟩ := hinner.exists_tokens
  rw [hstart, hstop, hinnerStart, hinnerStop]
  exact ⟨horder.head_start_le hhead (hown.subset hfirst),
    horder.stop_le_last hlast (hown.subset hback)⟩

theorem start_lt_stop {offset : Nat} (hspans : Spans tokens span)
    (horder : InOrder offset tokens) : span.start < span.stop := by
  obtain ⟨first, _, last, hmem, hfirst, _, hstart, hstop, _⟩ := hspans.exists_tokens
  have hle := horder.head_start_le hfirst hmem
  have hlt := horder.nonempty last hmem
  omega

end Spans

/-! ## Placed nodes -/

mutual

/-- The node is placed on the tokens. -/
inductive Placed : List Token → Node → Prop
  | intro {tokens : List Token} {node : Node} (hspan : Spans tokens node.span)
      (hchildren : Inside tokens node.children) : Placed tokens node

/-- The nodes are placed on some of the tokens, one after the other. -/
inductive Inside : List Token → List Node → Prop
  | none (tokens : List Token) : Inside tokens []
  | skip (token : Token) {tokens : List Token} {nodes : List Node}
      (hnodes : Inside tokens nodes) : Inside (token :: tokens) nodes
  | next {tokens rest : List Token} {node : Node} {nodes : List Node}
      (hnode : Placed tokens node) (hnodes : Inside rest nodes) :
      Inside (tokens ++ rest) (node :: nodes)

end

theorem Placed.spans {tokens : List Token} {node : Node} (hplaced : Placed tokens node) :
    Spans tokens node.span := by
  cases hplaced with
  | intro hspan _ => exact hspan

theorem Placed.alone {tokens : List Token} {node : Node} (hplaced : Placed tokens node) :
    Inside tokens [node] := by
  have hinside : Inside (tokens ++ []) [node] := .next hplaced (.none [])
  rwa [List.append_nil] at hinside

/-- A node with the span of its only child is placed where the child is. -/
theorem Placed.around {tokens : List Token} {inner outer : Node} (hinner : Placed tokens inner)
    (hchildren : outer.children = [inner]) (hspan : outer.span = inner.span) :
    Placed tokens outer :=
  .intro (hspan ▸ hinner.spans) (hchildren ▸ hinner.alone)

namespace Inside

/-- Tokens may be skipped before the nodes. -/
theorem skips {tokens : List Token} {nodes : List Node} (hnodes : Inside tokens nodes)
    (before : List Token) : Inside (before ++ tokens) nodes := by
  induction before with
  | nil => exact hnodes
  | cons token before ih => exact .skip token ih

theorem append {rest : List Token} {others : List Node} (hothers : Inside rest others) :
    ∀ {tokens : List Token} {nodes : List Node}, Inside tokens nodes →
      Inside (tokens ++ rest) (nodes ++ others)
  | _, _, .none tokens => hothers.skips tokens
  | _, _, .skip token hnodes => .skip token (append hothers hnodes)
  | _, _, .next hnode hnodes => by
      rw [List.append_assoc]
      exact .next hnode (append hothers hnodes)

/-- Tokens may be skipped after the nodes. -/
theorem before {tokens : List Token} {nodes : List Node} (hnodes : Inside tokens nodes)
    (after : List Token) : Inside (tokens ++ after) nodes := by
  have hinside := (Inside.none after).append hnodes
  rwa [List.append_nil] at hinside

/-- Each of the nodes is placed on tokens that stand together. -/
theorem exists_placed :
    ∀ {tokens : List Token} {nodes : List Node}, Inside tokens nodes →
      ∀ {node : Node}, node ∈ nodes → ∃ own, own <:+: tokens ∧ Placed own node
  | _, _, .none _, _, hmem => by cases hmem
  | _, _, .skip token hnodes, _, hmem => by
      obtain ⟨own, hown, hplaced⟩ := exists_placed hnodes hmem
      exact ⟨own, hown.trans (List.suffix_cons _ _).isInfix, hplaced⟩
  | _, _, .next hnode hnodes, _, hmem => by
      rcases List.mem_cons.mp hmem with rfl | hmem
      · exact ⟨_, (List.prefix_append _ _).isInfix, hnode⟩
      · obtain ⟨own, hown, hplaced⟩ := exists_placed hnodes hmem
        exact ⟨own, hown.trans (List.suffix_append _ _).isInfix, hplaced⟩

/-- The nodes follow one another in the source. -/
theorem pairwise :
    ∀ {offset : Nat} {tokens : List Token} {nodes : List Node}, Inside tokens nodes →
      InOrder offset tokens →
      nodes.Pairwise fun first second => first.span.stop ≤ second.span.start
  | _, _, _, .none _, _ => .nil
  | _, _, _, .skip _ hnodes, horder => pairwise hnodes horder.of_cons
  | _, _, _, .next hnode hnodes, horder => by
      refine List.pairwise_cons.mpr ⟨?_, pairwise hnodes horder.right⟩
      intro later hlater
      obtain ⟨own, hown, hplaced⟩ := exists_placed hnodes hlater
      obtain ⟨_, _, last, hlast, _, _, _, hstop, _⟩ := hnode.spans.exists_tokens
      obtain ⟨first, hfirst, _, _, _, _, hstart, _⟩ := hplaced.spans.exists_tokens
      rw [hstop, hstart]
      exact horder.stop_le_start hlast (hown.subset hfirst)

end Inside

theorem Placed.inside {tokens : List Token} {node : Node} (hplaced : Placed tokens node) :
    Inside tokens node.children := by
  cases hplaced with
  | intro _ hchildren => exact hchildren

/-- Whatever stands inside a placed node is placed on some of its tokens. -/
theorem Placed.within {outer node : Node} (hwithin : outer.Within node) :
    ∀ {tokens : List Token}, Placed tokens outer →
      ∃ own, own <:+: tokens ∧ Placed own node := by
  induction hwithin with
  | self node => exact fun hplaced => ⟨_, List.infix_refl _, hplaced⟩
  | child hinner _ ih =>
      intro tokens hplaced
      obtain ⟨middle, hmiddle, hchild⟩ := hplaced.inside.exists_placed hinner
      obtain ⟨own, hown, hnode⟩ := ih hchild
      exact ⟨own, hown.trans hmiddle, hnode⟩

/-- The children of a placed node lie within its span, one after the other. -/
theorem Placed.children_within {tokens : List Token} {node : Node} {offset : Nat}
    (hplaced : Placed tokens node) (horder : InOrder offset tokens) :
    (∀ child ∈ node.children,
      node.span.start ≤ child.span.start ∧ child.span.stop ≤ node.span.stop) ∧
      node.children.Pairwise fun first second => first.span.stop ≤ second.span.start := by
  constructor
  · intro child hchild
    obtain ⟨own, hown, hplacedChild⟩ := hplaced.inside.exists_placed hchild
    exact hplaced.spans.contains hplacedChild.spans hown horder
  · exact hplaced.inside.pairwise horder

end DeclCheck
