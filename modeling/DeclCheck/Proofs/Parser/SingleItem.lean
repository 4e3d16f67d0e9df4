import DeclCheck.Proofs.Grammar.Layout
import DeclCheck.Proofs.Parser.Budget
import DeclCheck.Proofs.Parser.ProgramCompleteness
import DeclCheck.Proofs.Parser.Rounds

/-!
# Items around one expression

An expression with its semicolon and a global variable with its value are read alike once
what leads up to the expression has been taken.  Whether a source of one such item is read
depends on nothing but the cost of the expression: within the budget the item is read, and
beyond it the one error is that an expression is nested too deeply.
-/

namespace DeclCheck

open Grammar

/-- A source is read as one item if the condition holds.  Otherwise nothing is read, and the
one error is that an expression is nested too deeply. -/
structure AcceptedIff (read : Parse) (fits : Prop) : Prop where
  clean_iff : read.errors = [] ↔ fits
  accepted : fits → read.program.items.length = 1
  refused : ¬ fits → read.errors.map SourceError.message = ["expression nested too deeply"] ∧
    read.program.items = []

/-! ## Expressions beyond the budget -/

namespace Parser

/-- The parser never complains of a block. -/
def SparesBlocks {α : Type} (parser : Parser α) : Prop :=
  ∀ ⦃state after : ParserState⦄ ⦃error : SyntaxError⦄,
    parser state = .error error after → error.cause ≠ .tooDeep .block

theorem sparesBlocks_of_ok {α : Type} {parser : Parser α}
    (hok : ∀ state, ∃ value after, parser state = .ok value after) : SparesBlocks parser := by
  intro state after error hrun
  obtain ⟨value, last, hvalue⟩ := hok state
  rw [hvalue] at hrun
  cases hrun

theorem sparesBlocks_bind {α β : Type} {parser : Parser α} {next : α → Parser β}
    (hparser : SparesBlocks parser) (hnext : ∀ value, SparesBlocks (next value)) :
    SparesBlocks (parser >>= next) := by
  intro state after error hrun
  cases hfirst : parser state with
  | ok value middle =>
      rw [bind_of_ok next hfirst] at hrun
      exact hnext value hrun
  | error own middle =>
      rw [bind_of_error next hfirst] at hrun
      cases hrun
      exact hparser hfirst

theorem spend_sparesBlocks (cost : Nat) : SparesBlocks (spend cost .expression) := by
  intro state after error hrun
  by_cases hdeep : state.depth + cost > nestingBudget
  · rw [spend_of_gt .expression hdeep] at hrun
    cases hrun
    simp
  · rw [spend_of_le .expression (Nat.le_of_not_gt hdeep)] at hrun
    cases hrun

theorem keepingDepth_sparesBlocks {α : Type} {parser : Parser α}
    (hparser : SparesBlocks parser) : SparesBlocks (keepingDepth parser) := by
  intro state after error hrun
  rw [keepingDepth] at hrun
  cases hinner : parser state with
  | ok value last =>
      rw [hinner] at hrun
      cases hrun
  | error own last =>
      rw [hinner] at hrun
      cases hrun
      exact hparser hinner

theorem budgeted_sparesBlocks {α : Type} (cost : Nat) {parser : Parser α}
    (hparser : SparesBlocks parser) : SparesBlocks (budgeted cost .expression parser) := by
  have hspent : SparesBlocks (spend cost .expression >>= fun _ => parser) :=
    sparesBlocks_bind (spend_sparesBlocks cost) fun _ => hparser
  intro state after error hrun
  rw [budgeted_apply] at hrun
  split at hrun
  · cases hrun
  · rename_i own last hinner
    cases hrun
    exact hspent hinner

theorem tooDeep_sparesBlocks {α : Type} :
    SparesBlocks (tooDeep .expression : Parser α) := by
  intro state after error hrun
  cases hrun
  simp

theorem sparesBlocks_combining : Combining SparesBlocks where
  pure value := sparesBlocks_of_ok fun state => ⟨value, state, rfl⟩
  bind := sparesBlocks_bind
  peek := sparesBlocks_of_ok fun state => ⟨_, _, peek_apply state⟩
  shift := sparesBlocks_of_ok fun _ => ⟨_, _, rfl⟩
  reject wanted state after error hrun := by
    cases hrun
    simp
  tooDeep hrun := tooDeep_sparesBlocks hrun
  spend := spend_sparesBlocks
  keepingDepth := keepingDepth_sparesBlocks
  budgeted := budgeted_sparesBlocks
  commas helement hmore := by
    have hleft : SparesBlocks tokensLeft :=
      sparesBlocks_of_ok fun state => ⟨_, _, tokensLeft_apply state⟩
    refine sparesBlocks_bind helement fun first => sparesBlocks_bind hleft fun left => ?_
    refine sparesBlocks_bind (hmore left) fun rest => ?_
    exact sparesBlocks_of_ok fun state => ⟨_, state, rfl⟩

theorem expression_sparesBlocks : SparesBlocks expression := by
  apply (sparesBlocks_combining.compositional _).expression
  intro span state after error hrun
  cases hrun
  simp

/-- Reading an expression files nothing, whatever becomes of it. -/
theorem reports_finalState_expression (state : ParserState) :
    (finalState expression state).reports = state.reports := by
  obtain ⟨_, _, _, _, hfinal⟩ := exists_finalState_expression state
  rw [hfinal]

theorem not_filesTooDeep (state : ParserState) :
    ¬ FilesTooDeep state.reports (finalState expression state) := by
  rintro ⟨report, more, hreports, _⟩
  rw [reports_finalState_expression] at hreports
  exact List.cons_ne_nil report more (List.self_eq_append_right.mp hreports)

/-- An expression that costs more than the whole budget is refused wherever it stands. -/
theorem expression_of_excessive {tokens rest : List Token} {expr : Expr}
    (hexpr : DerivesExpr .expression tokens expr) (state : ParserState)
    (hcost : ¬ constructCost + expr.nesting ≤ nestingBudget)
    (hends : EndsExpr (nextKind rest)) :
    ∃ error after, expression (state.moveTo (tokens ++ rest)) = .error error after ∧
      error.cause = .tooDeep .expression := by
  have hfiles := not_filesTooDeep (state.moveTo (tokens ++ rest))
  rcases expression_accepts hexpr state hends with hrun | hoverruns
  · exact absurd (nesting_le_of_expression hrun) hcost
  · cases hrun : expression (state.moveTo (tokens ++ rest)) with
    | ok value after =>
        rw [hrun] at hoverruns
        rw [finalState_of_ok hrun] at hfiles
        exact absurd hoverruns hfiles
    | error error after =>
        rw [hrun] at hoverruns
        rw [finalState_of_error hrun] at hfiles
        obtain ⟨_, construct, hcause⟩ := hoverruns.resolve_right hfiles
        cases construct with
        | expression => exact ⟨error, after, rfl, hcause⟩
        | block => exact absurd hcause (expression_sparesBlocks hrun)

end Parser

/-! ## The tokens of expressions -/

namespace Grammar

mutual

/-- The tokens of an expression are neither semicolons nor braces. -/
theorem DerivesExpr.isInner :
    ∀ {cls : ExprClass} {tokens : List Token} {expr : Expr}, DerivesExpr cls tokens expr →
      ∀ token ∈ tokens, Parser.isInner token.kind = true
  | _, _, _, .integer _ _ => List.forall_mem_singleton.mpr rfl
  | _, _, _, .float _ _ => List.forall_mem_singleton.mpr rfl
  | _, _, _, .string _ _ => List.forall_mem_singleton.mpr rfl
  | _, _, _, .boolean _ _ => List.forall_mem_singleton.mpr rfl
  | _, _, _, .identifier _ _ => List.forall_mem_singleton.mpr rfl
  | _, _, _, .emptyCall _ _ _ _ => by simp [Parser.isInner]
  | _, _, _, .call _ _ _ _ hargs => by
      have hinner := hargs.isInner
      simpa [Parser.isInner, or_imp, forall_and] using hinner
  | _, _, _, .paren _ _ hexpr => by
      have hinner := hexpr.isInner
      simpa [Parser.isInner, or_imp, forall_and] using hinner
  | _, _, _, .ofPrimary hprimary => hprimary.isInner
  | _, _, _, .unary _ op hoperand =>
      List.forall_mem_cons.mpr ⟨by cases op <;> rfl, hoperand.isInner⟩
  | _, _, _, .ofOperand _ hoperand => hoperand.isInner
  | _, _, _, .binary _ op hleft hright =>
      List.forall_mem_append.mpr ⟨hleft.isInner,
        List.forall_mem_cons.mpr ⟨by cases op <;> rfl, hright.isInner⟩⟩
  | _, _, _, .ofChain hchain => hchain.isInner
  | _, _, _, .assign _ _ _ hvalue =>
      List.forall_mem_cons.mpr ⟨rfl, List.forall_mem_cons.mpr ⟨rfl, hvalue.isInner⟩⟩

theorem DerivesArgs.isInner :
    ∀ {tokens : List Token} {args : List Expr}, DerivesArgs tokens args →
      ∀ token ∈ tokens, Parser.isInner token.kind = true
  | _, _, .last hexpr => hexpr.isInner
  | _, _, .more _ hexpr hrest =>
      List.forall_mem_append.mpr ⟨hexpr.isInner, List.forall_mem_cons.mpr ⟨rfl, hrest.isInner⟩⟩

end

/-- Tokens of the same kinds, wherever they stand, hold the same expression before the
last semicolon. -/
theorem DerivesExpr.exists_placed {tokens found : List Token} {expr : Expr}
    (hexpr : DerivesExpr .expression tokens expr) {lead : List TokenKind}
    (hkinds : found.map Token.kind =
      lead ++ (tokens.map Token.kind ++ [TokenKind.symbol .semicolon])) :
    ∃ front placed stop copy, found = front ++ (placed ++ [⟨.symbol .semicolon, stop⟩]) ∧
      front.map Token.kind = lead ∧ DerivesExpr .expression placed copy ∧
        copy.bare = expr.bare := by
  obtain ⟨front, others, rfl, hfront, hothers⟩ := List.map_eq_append_iff.mp hkinds
  obtain ⟨placed, last, rfl, hplaced, hlast⟩ := List.map_eq_append_iff.mp hothers
  obtain ⟨⟨_, stop⟩, rfl, rfl⟩ := List.map_eq_singleton_iff.mp hlast
  have hbare : placed.map Token.bare = tokens.map Token.bare := by
    rw [map_bare_eq_map_kind, hplaced, ← map_bare_eq_map_kind]
  obtain ⟨copy, hcopy, hsame⟩ := hexpr.bare.placed hbare
  exact ⟨front, placed, stop, copy, rfl, hfront, hcopy, hsame⟩

end Grammar

/-! ## Items -/

namespace Parser

/-- Behind the leading tokens there is nothing to an item but an expression and a
semicolon. -/
def Leads (lead : List Token) (build : Expr → Span → Item) : Prop :=
  ∀ (state : ParserState) (tokens : List Token), startsExpr (nextKind tokens) = true →
    item (state.moveTo (lead ++ tokens)) =
      (do
        let value ← expression
        let stop ← symbol .semicolon
        return build value stop : Parser Item) (state.moveTo tokens)

theorem leads_evaluation :
    Leads [] fun expr stop => .expression (expr.span.cover stop) expr := by
  intro state tokens hstarts
  rw [List.nil_append, item_of_startsExpr (by rwa [kind_current_moveTo]), evaluation]
  simp only [bind_assoc, pure_bind]

theorem leads_global (type : TypeName) (name : String) (start middle mark : Span) :
    Leads [⟨.type type, start⟩, ⟨.identifier name, middle⟩, ⟨.symbol .assign, mark⟩]
      fun value stop => .global
        { type := type.spelling, name := name, init := some value, span := start.cover stop } := by
  intro state tokens _
  let assigned : List Token := ⟨.symbol .assign, mark⟩ :: tokens
  have hopen : nextKind assigned ≠ .symbol .openParen := by simp [assigned, nextKind]
  have hdeclaration :
      declaration
          (state.moveTo (⟨.type type, start⟩ :: ⟨.identifier name, middle⟩ :: assigned)) =
        (do return Item.global (← variableAfter type start name) : Parser Item)
          (state.moveTo assigned) :=
    (bind_of_ok _ (typeName_moveTo state _ _ _)).trans
      ((bind_of_ok _ (identifier_moveTo state _ _ _)).trans (ifAt_of_ne hopen _ _ state))
  have hafter : variableAfter type start name (state.moveTo assigned) =
      (do
        let value ← expression
        let stop ← symbol .semicolon
        return { type := type.spelling, name := name, init := some value,
                 span := start.cover stop } : Parser VariableDecl) (state.moveTo tokens) := by
    have hvalue : (do
          if ← at? .assign then
            let _ ← shift
            some <$> expression
          else pure none : Parser (Option Expr)) (state.moveTo assigned) =
        (some <$> expression) (state.moveTo tokens) :=
      (ifAt_of_eq rfl _ _ state).trans (bind_of_ok _ (shift_moveTo state _ _))
    refine (bind_congr_run _ hvalue).trans ?_
    simp only [map_eq_bind, bind_assoc, pure_bind]
  refine hdeclaration.trans ((bind_congr_run _ hafter).trans ?_)
  simp only [bind_assoc, pure_bind]

/-- The last round, whether it reads an item or not. -/
theorem itemsWithin_single {state after : ParserState} {read : Option Item}
    (heof : state.current.kind ≠ .eof) (hstep : itemStep state = (read, after))
    (hend : after.tokens = []) (bound : Nat) :
    itemsWithin (bound + 1) state = (read.toList, after) := by
  have hlast : itemsWithin bound after = ([], after) := by
    cases bound with
    | zero => rfl
    | succ bound =>
        rw [itemsWithin, if_pos]
        rw [ParserState.current, hend]
  rw [itemsWithin, if_neg heof, hstep]
  simp only [hlast, List.append_nil]

/-- Without lexical errors, all errors are those of the items. -/
theorem parse_of_items {source : List Char} {read : List Item} {final : ParserState}
    (hlexical : lexErrors (lex source) = [])
    (hitems : items (goodTokens (lex source)) (endSpan source) = (read, final)) :
    parse source = ⟨⟨read⟩, final.reports.map fun report => .syntactic report.error⟩ := by
  have hinterleave : ∀ reports : List Report,
      interleave [] reports = reports.map fun report => .syntactic report.error := by
    intro reports
    induction reports with
    | nil => rfl
    | cons report rest ih => exact congrArg (SourceError.syntactic report.error :: ·) ih
  simp only [parse, hitems, hlexical, hinterleave]

section Leads

variable {lead tokens : List Token} {build : Expr → Span → Item} {expr : Expr}
variable (hleads : Leads lead build) (hexpr : DerivesExpr .expression tokens expr)
variable (stop : Span)

section Runs

include hleads hexpr

theorem item_of_affordable (state : ParserState)
    (hbudget : state.depth + (constructCost + expr.nesting) ≤ nestingBudget) :
    item (state.moveTo (lead ++ (tokens ++ [⟨.symbol .semicolon, stop⟩]))) =
      .ok (build expr stop) (state.moveTo []) := by
  have hends : EndsExpr (nextKind [⟨.symbol .semicolon, stop⟩]) :=
    endsExpr_of_mem (.inr (.inr rfl))
  rw [hleads state _ (nextKind_append_of_head hexpr.head _),
    bind_of_ok _ (expression_of_derives hexpr hbudget hends),
    bind_of_ok _ (symbol_moveTo state _ _ _)]
  rfl

theorem item_of_excessive (state : ParserState)
    (hcost : ¬ constructCost + expr.nesting ≤ nestingBudget) :
    ∃ error after,
      item (state.moveTo (lead ++ (tokens ++ [⟨.symbol .semicolon, stop⟩]))) =
        .error error after ∧ error.cause = .tooDeep .expression := by
  have hends : EndsExpr (nextKind [⟨.symbol .semicolon, stop⟩]) :=
    endsExpr_of_mem (.inr (.inr rfl))
  obtain ⟨error, after, hrun, hcause⟩ := expression_of_excessive hexpr state hcost hends
  refine ⟨error, after, ?_, hcause⟩
  rw [hleads state _ (nextKind_append_of_head hexpr.head _), bind_of_error _ hrun]

end Runs

variable (hlead : ∀ token ∈ lead, isInner token.kind = true)
include hlead hexpr

theorem facing_item (state : ParserState) :
    Facing state [] (state.moveTo (lead ++ (tokens ++ [⟨.symbol .semicolon, stop⟩]))) := by
  refine ⟨lead ++ tokens, ⟨.symbol .semicolon, stop⟩, ?_, rfl, ?_⟩
  · exact List.forall_mem_append.mpr ⟨hlead, hexpr.isInner⟩
  · rw [List.append_assoc]
    rfl

/-- A single round is all there is to it. -/
theorem items_of_itemStep (endSpan : Span) {read : Option Item} {after : ParserState}
    (hstep : itemStep { tokens := lead ++ (tokens ++ [⟨.symbol .semicolon, stop⟩]),
                        endSpan := endSpan } = (read, after))
    (hend : after.tokens = []) :
    items (lead ++ (tokens ++ [⟨.symbol .semicolon, stop⟩])) endSpan =
      (read.toList, after) := by
  have hfacing := facing_item hexpr stop hlead { tokens := [], endSpan := endSpan }
  have heof := hfacing.current_ne rfl (by simp : TokenKind.eof ≠ .symbol .semicolon)
  rw [items, List.length_append, List.length_append, ← Nat.add_assoc]
  exact itemsWithin_single heof hstep hend _

include hleads

/-- Within the budget the item is read. -/
theorem items_of_affordable (endSpan : Span)
    (hbudget : constructCost + expr.nesting ≤ nestingBudget) :
    items (lead ++ (tokens ++ [⟨.symbol .semicolon, stop⟩])) endSpan =
      ([build expr stop], { tokens := [], endSpan := endSpan }) := by
  let ended : ParserState := { tokens := [], endSpan := endSpan }
  have hrun := item_of_affordable hleads hexpr stop ended (by rwa [Nat.zero_add])
  have hstep : itemStep (ended.moveTo (lead ++ (tokens ++ [⟨.symbol .semicolon, stop⟩]))) =
      (some (build expr stop), ended.moveTo []) := by
    rw [itemStep, recover, hrun]
  exact items_of_itemStep hexpr stop hlead endSpan hstep rfl

/-- Beyond the budget nothing is read, and the one error says why. -/
theorem items_of_excessive (endSpan : Span)
    (hcost : ¬ constructCost + expr.nesting ≤ nestingBudget) :
    ∃ report : Report, report.error.cause = .tooDeep .expression ∧
      items (lead ++ (tokens ++ [⟨.symbol .semicolon, stop⟩])) endSpan =
        ([], { tokens := [], endSpan := endSpan, reports := [report] }) := by
  let ended : ParserState := { tokens := [], endSpan := endSpan }
  obtain ⟨error, after, hrun, hcause⟩ := item_of_excessive hleads hexpr stop ended hcost
  let report : Report := { error := error, raisedAt := after.current.span }
  have hstep : itemStep (ended.moveTo (lead ++ (tokens ++ [⟨.symbol .semicolon, stop⟩]))) =
      (none, { ended with reports := [report] }) := by
    rw [itemStep, recover_of_error item_ends (facing_item hexpr stop hlead ended) hrun]
    rfl
  exact ⟨report, hcause, items_of_itemStep hexpr stop hlead endSpan hstep rfl⟩

/-- Whether the item is read is a matter of what its expression costs. -/
theorem acceptedIff_of_leads {source : List Char} (hlexical : lexErrors (lex source) = [])
    (htokens : goodTokens (lex source) = lead ++ (tokens ++ [⟨.symbol .semicolon, stop⟩])) :
    AcceptedIff (parse source) (constructCost + expr.nesting ≤ nestingBudget) := by
  by_cases hbudget : constructCost + expr.nesting ≤ nestingBudget
  · have hitems := items_of_affordable hleads hexpr stop hlead (endSpan source) hbudget
    rw [parse_of_items hlexical (htokens ▸ hitems)]
    exact ⟨iff_of_true rfl hbudget, fun _ => rfl, fun hexcess => absurd hbudget hexcess⟩
  · obtain ⟨report, hcause, hitems⟩ :=
      items_of_excessive hleads hexpr stop hlead (endSpan source) hbudget
    have hmessage : report.error.message = "expression nested too deeply" := by
      rw [SyntaxError.message, hcause]
      rfl
    rw [parse_of_items hlexical (htokens ▸ hitems)]
    refine ⟨iff_of_false (List.cons_ne_nil _ _) hbudget, fun hfits => absurd hfits hbudget, ?_⟩
    exact fun _ => ⟨congrArg (fun message => [message]) hmessage, rfl⟩

end Leads

end Parser

end DeclCheck
