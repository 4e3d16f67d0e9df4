import DeclCheck.Proofs.Grammar.Placement
import DeclCheck.Proofs.Parser.Progress
import DeclCheck.Proofs.Parser.ProgramSoundness

/-!
# The places of what was read

Whatever errors a source has, the nodes of the program that was read from it are placed
on its tokens.  A statement or an item that could not be read leaves no node, and its
tokens are skipped between those of its neighbours.
-/

namespace DeclCheck.Parser

open Grammar

variable {α : Type}

/-- Where the parser succeeds, the node that it answers is placed on the tokens that it
took, if these are in order. -/
def Places (parser : Parser α) (node : α → Node) : Prop :=
  ∀ ⦃state after : ParserState⦄ ⦃value : α⦄, parser state = .ok value after →
    ∃ tokens, state.tokens = tokens ++ after.tokens ∧
      (InOrder 0 tokens → Placed tokens (node value))

theorem taken_trans {first second : List Token} {state middle after : ParserState}
    (hfirst : state.tokens = first ++ middle.tokens)
    (hsecond : middle.tokens = second ++ after.tokens) :
    state.tokens = (first ++ second) ++ after.tokens := by
  rw [hfirst, hsecond, List.append_assoc]

/-! ## Statements -/

/-- A keyword with a condition and a block, as in a loop. -/
theorem placed_guarded {token : Token} {guard tokens : List Token} {condition : Expr}
    {body : Block} {node : Node} (hcondition : DerivesCondition guard condition)
    (horder : InOrder 0 (token :: (guard ++ tokens)))
    (hbody : InOrder 0 tokens → Placed tokens (.block body))
    (hspan : node.span = token.span.cover body.span)
    (hchildren : node.children = [.expr condition, .block body]) :
    Placed (token :: (guard ++ tokens)) node := by
  have hplaced := hbody horder.of_cons.right
  constructor
  · rw [hspan]
    exact (spans_single token).cover guard hplaced.spans horder
  · rw [hchildren]
    exact .skip token (hplaced.alone.append (hcondition.inside horder.of_cons.left))

theorem statement_places {block : Parser Block} (hblock : Places block Node.block) :
    Places (statement block) Node.stmt := by
  intro state after stmt hrun
  cases statement_run hrun with
  | declare hconsumed hdecl =>
      exact ⟨_, hconsumed.tokens_eq, fun horder => (hdecl.placedOn horder).around rfl rfl⟩
  | evaluate hconsumed hexpr =>
      exact ⟨_, hconsumed.tokens_eq, fun horder => hexpr.placedOn horder rfl rfl⟩
  | leave hconsumed =>
      refine ⟨_, hconsumed.tokens_eq, fun horder => ?_⟩
      exact .intro ((spans_single _).cover [] (spans_single _) horder) (.none _)
  | leaveWith hconsumed hvalue =>
      refine ⟨_, hconsumed.tokens_eq, fun horder => ?_⟩
      obtain ⟨hvalue⟩ := hvalue
      exact .intro ((spans_single _).cover _ (spans_single _) horder)
        (.skip _ (.next (hvalue.placedOn horder.of_cons.left) (.none _)))
  | nest hinner =>
      obtain ⟨tokens, htokens, hplaced⟩ := hblock hinner
      exact ⟨tokens, htokens, fun horder => (hplaced horder).around rfl rfl⟩
  | ifThen hconsumed hcondition hbody =>
      obtain ⟨tokens, htokens, hplaced⟩ := hblock hbody
      refine ⟨_, taken_trans hconsumed.tokens_eq htokens, fun horder => ?_⟩
      exact placed_guarded hcondition horder hplaced rfl rfl
  | loop hconsumed hcondition hbody =>
      obtain ⟨tokens, htokens, hplaced⟩ := hblock hbody
      refine ⟨_, taken_trans hconsumed.tokens_eq htokens, fun horder => ?_⟩
      exact placed_guarded hcondition horder hplaced rfl rfl
  | @ifElse start mark guard _ _ _ _ _ _ hconsumed hcondition htrue hmark hfalse =>
      obtain ⟨trueTokens, htrueTokens, hplacedTrue⟩ := hblock htrue
      obtain ⟨falseTokens, hfalseTokens, hplacedFalse⟩ := hblock hfalse
      refine ⟨_, taken_trans hconsumed.tokens_eq (taken_trans htrueTokens
        (taken_trans hmark.tokens_eq hfalseTokens)), fun horder => ?_⟩
      have hguard := hcondition.inside horder.left.of_cons
      have htruePlaced := hplacedTrue horder.right.left
      have hfalsePlaced := hplacedFalse horder.right.right.right
      constructor
      · -- the span covers the keyword and the last block; all else is in between
        have hregroup : ⟨.keyword .ifWord, start⟩ :: guard ++
            (trueTokens ++ ([⟨.keyword .elseWord, mark⟩] ++ falseTokens)) =
            [⟨.keyword .ifWord, start⟩] ++
              ((guard ++ (trueTokens ++ [⟨.keyword .elseWord, mark⟩])) ++ falseTokens) := by
          simp
        rw [hregroup] at horder ⊢
        exact (spans_single _).cover _ hfalsePlaced.spans horder
      · exact .skip _ (Inside.append (.next htruePlaced (.skip _ hfalsePlaced.alone)) hguard)

/-! ## Blocks -/

theorem budgeted_places {cost : Nat} {construct : Construct} {parser : Parser α}
    {node : α → Node} (hparser : Places parser node) :
    Places (budgeted cost construct parser) node := by
  intro state after value hrun
  obtain ⟨reached, hinner, rfl⟩ := budgeted_eq_ok hrun
  obtain ⟨tokens, htokens, hplaced⟩ := hparser hinner
  exact ⟨tokens, htokens, hplaced⟩

/-- The nodes are placed on the tokens that are taken from one state to the other, if
these are in order. -/
def PlacedBetween (state after : ParserState) (nodes : List Node) : Prop :=
  ∃ tokens, state.tokens = tokens ++ after.tokens ∧
    (InOrder 0 tokens → Inside tokens nodes)

theorem Places.between {parser : Parser α} {node : α → Node} (hparser : Places parser node)
    {state after : ParserState} {value : α} (hrun : parser state = .ok value after) :
    PlacedBetween state after [node value] := by
  obtain ⟨tokens, htokens, hplaced⟩ := hparser hrun
  exact ⟨tokens, htokens, fun horder => (hplaced horder).alone⟩

/-- Tokens may be taken without a node. -/
theorem placedBetween_nil {state after : ParserState} (hleft : after.tokens <:+ state.tokens) :
    PlacedBetween state after [] := by
  obtain ⟨skipped, hskipped⟩ := hleft
  exact ⟨skipped, hskipped.symm, fun _ => .none skipped⟩

theorem PlacedBetween.append {state middle after : ParserState} {nodes others : List Node}
    (hnodes : PlacedBetween state middle nodes) (hothers : PlacedBetween middle after others) :
    PlacedBetween state after (nodes ++ others) := by
  obtain ⟨first, hfirst, hplaced⟩ := hnodes
  obtain ⟨rest, hrest, hplacedRest⟩ := hothers
  refine ⟨_, taken_trans hfirst hrest, fun horder => ?_⟩
  exact (hplacedRest horder.right).append (hplaced horder.left)

/-- A round with recovery places what it reads, and skips the tokens of what it does not
read. -/
theorem recover_places {parser : Parser α} {node : α → Node} (hshrinks : Keeps Shrinks parser)
    (hparser : Places parser node) (state : ParserState) :
    PlacedBetween state (recover parser state).2
      ((recover parser state).1.toList.map node) := by
  have hleft := shrinks_recoverClosed.recover hshrinks state
  cases hrun : parser state with
  | ok value after =>
      rw [recover, hrun]
      exact hparser.between hrun
  | error error after =>
      rw [recover, hrun] at hleft ⊢
      exact placedBetween_nil hleft

theorem statementsWithin_places {statement : Parser Stmt} (hshrinks : Keeps Shrinks statement)
    (hstatement : Places statement Node.stmt) (bound : Nat) :
    ∀ state : ParserState, PlacedBetween state (statementsWithin statement bound state).2
      ((statementsWithin statement bound state).1.map Node.stmt) := by
  induction bound with
  | zero => exact fun state => placedBetween_nil (List.suffix_refl _)
  | succ bound ih =>
      intro state
      rw [statementsWithin]
      split
      · exact placedBetween_nil (List.suffix_refl _)
      · rw [List.map_append]
        exact (recover_places hshrinks hstatement state).append (ih _)

theorem braced_places {statement : Parser Stmt} (hshrinks : Keeps Shrinks statement)
    (hstatement : Places statement Node.stmt) : Places (braced statement) Node.block := by
  intro state after block hrun
  obtain ⟨start, stop, inner, hstart, hstop, rfl⟩ := braced_run hrun
  obtain ⟨tokens, htokens, hplaced⟩ :=
    statementsWithin_places hshrinks hstatement inner.tokens.length inner
  refine ⟨_, taken_trans hstart.tokens_eq (taken_trans htokens hstop.tokens_eq),
    fun horder => ?_⟩
  exact .intro ((spans_single _).cover tokens (spans_single _) horder)
    (.skip _ ((hplaced horder.right.left).before _))

theorem blockWithin_places (levels : Nat) : Places (blockWithin levels) Node.block := by
  induction levels with
  | zero =>
      intro state after block hrun
      cases hrun
  | succ levels ih =>
      exact budgeted_places (braced_places
        (shrinks_recovering.statement (shrinks_recovering.blockWithin levels))
        (statement_places ih))

/-! ## Items -/

theorem item_places : Places item Node.item := by
  intro state after read hrun
  cases item_run hrun with
  | global hconsumed hdecl =>
      exact ⟨_, hconsumed.tokens_eq, fun horder => (hdecl.placedOn horder).around rfl rfl⟩
  | expression hconsumed hexpr =>
      exact ⟨_, hconsumed.tokens_eq, fun horder => hexpr.placedOn horder rfl rfl⟩
  | function hconsumed hparams hbody =>
      obtain ⟨tokens, htokens, hplaced⟩ := blockWithin_places _ hbody
      refine ⟨_, taken_trans hconsumed.tokens_eq htokens, fun horder => ?_⟩
      have hbodyPlaced := hplaced horder.right
      have hinside := hparams.inside horder.left.of_cons.of_cons.of_cons.left
      refine Placed.around ?_ rfl rfl
      exact .intro ((spans_single _).cover (_ :: _ :: _) hbodyPlaced.spans horder)
        (.skip _ (.skip _ (.skip _ (hbodyPlaced.alone.append (hinside.before _)))))

theorem itemStep_places (state : ParserState) :
    PlacedBetween state (itemStep state).2 ((itemStep state).1.toList.map Node.item) := by
  have hleft := shrinks_recoverClosed.itemStep state
  cases hrun : item state with
  | ok read after =>
      rw [itemStep_of_ok hrun]
      exact item_places.between hrun
  | error error after =>
      rw [itemStep, recover, hrun] at hleft ⊢
      exact placedBetween_nil hleft

theorem itemsWithin_places (bound : Nat) :
    ∀ state : ParserState, PlacedBetween state (itemsWithin bound state).2
      ((itemsWithin bound state).1.map Node.item) := by
  induction bound with
  | zero => exact fun state => placedBetween_nil (List.suffix_refl _)
  | succ bound ih =>
      intro state
      rw [itemsWithin]
      split
      · exact placedBetween_nil (List.suffix_refl _)
      · rw [List.map_append]
        exact (itemStep_places state).append (ih _)

/-- The items of a source are placed on its good tokens, one after the other. -/
theorem items_inside (source : List Char) :
    Inside (goodTokens (lex source)) ((parse source).program.items.map Node.item) := by
  have horder := goodTokens_inOrder source
  obtain ⟨tokens, htokens, hinside⟩ := itemsWithin_places (goodTokens (lex source)).length
    { tokens := goodTokens (lex source), endSpan := endSpan source }
  dsimp only at htokens
  rw [htokens] at horder
  -- the loop reads all tokens, but here it is enough that the items come first
  have hall := (hinside horder.left).before
    (items (goodTokens (lex source)) (endSpan source)).2.tokens
  rwa [items, ← htokens] at hall

end DeclCheck.Parser
