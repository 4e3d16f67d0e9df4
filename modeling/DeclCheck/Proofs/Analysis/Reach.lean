import DeclCheck.Parser.Program
import DeclCheck.Proofs.Analysis.Runs

/-!
# A deep look at calls only adds findings

Looking at everything inside an expression meets the expression and its children in the
order in which they are met without a deep look, with other nodes between them.  All that
is ever filed about a node is an undefined call, so these are all that a deep look adds.
-/

namespace DeclCheck

/-! ## Lists with elements added -/

/-- `GrowsBy added fewer more` says that `more` is `fewer` with some elements put in, all
of them with the property. -/
inductive GrowsBy {α : Type} (added : α → Prop) : List α → List α → Prop
  | nil : GrowsBy added [] []
  | keep (first : α) {fewer more : List α} (hrest : GrowsBy added fewer more) :
      GrowsBy added (first :: fewer) (first :: more)
  | add {first : α} (hadded : added first) {fewer more : List α}
      (hrest : GrowsBy added fewer more) : GrowsBy added fewer (first :: more)

namespace GrowsBy

variable {α β : Type} {added : α → Prop} {fewer more : List α}

theorem refl (list : List α) : GrowsBy added list list := by
  induction list with
  | nil => exact .nil
  | cons first rest ih => exact .keep first ih

theorem append (hfirst : GrowsBy added fewer more) {fewer' more' : List α}
    (hsecond : GrowsBy added fewer' more') :
    GrowsBy added (fewer ++ fewer') (more ++ more') := by
  induction hfirst with
  | nil => exact hsecond
  | keep first _ ih => exact .keep first ih
  | add hadded _ ih => exact .add hadded ih

theorem flatMap {fewer more : β → List α} (hgrows : ∀ x, GrowsBy added (fewer x) (more x))
    (list : List β) : GrowsBy added (list.flatMap fewer) (list.flatMap more) := by
  induction list with
  | nil => exact .nil
  | cons first rest ih => exact (hgrows first).append ih

theorem map {view : α → β} {addedView : β → Prop}
    (hview : ∀ x, added x → addedView (view x)) (hgrows : GrowsBy added fewer more) :
    GrowsBy addedView (fewer.map view) (more.map view) := by
  induction hgrows with
  | nil => exact .nil
  | keep first _ ih => exact .keep (view first) ih
  | add hadded _ ih => exact .add (hview _ hadded) ih

theorem sublist (hgrows : GrowsBy added fewer more) : fewer.Sublist more := by
  induction hgrows with
  | nil => exact .slnil
  | keep first _ ih => exact ih.cons_cons first
  | add _ _ ih => exact ih.cons _

/-- If all that is found in a list has the property, then more is found in a longer
list. -/
theorem filterMap {find? : β → Option α} (hfind : ∀ x found, find? x = some found → added found)
    {few many : List β} (hsublist : few.Sublist many) :
    GrowsBy added (few.filterMap find?) (many.filterMap find?) := by
  induction hsublist with
  | slnil => exact .nil
  | cons first _ ih =>
      rw [List.filterMap_cons]
      split
      · exact ih
      · exact .add (hfind first _ ‹_›) ih
  | cons_cons first _ ih =>
      rw [List.filterMap_cons, List.filterMap_cons]
      split
      · exact ih
      · exact .keep _ ih

end GrowsBy

/-! ## Nodes -/

namespace Expr

/-- The deep walk meets an expression first, then what stands in its children. -/
theorem subexpressions_eq_cons (expr : Expr) :
    expr.subexpressions = expr :: subexpressionsOfEach expr.children := by
  cases expr <;> simp [subexpressions, children, subexpressionsOfEach]

theorem sublist_subexpressionsOfEach (exprs : List Expr) :
    exprs.Sublist (subexpressionsOfEach exprs) := by
  induction exprs with
  | nil => exact .slnil
  | cons first rest ih =>
      rw [subexpressionsOfEach, subexpressions_eq_cons, List.cons_append]
      exact (ih.trans (List.sublist_append_right _ _)).cons_cons first

theorem examined_sublist (expr : Expr) :
    (expr.examined .shallow).Sublist (expr.examined .deep) := by
  rw [examined, examined, subexpressions_eq_cons]
  exact (sublist_subexpressionsOfEach expr.children).cons_cons expr

end Expr

/-! ## Filings -/

theorem callFilings_grow (defined : String → Bool) (sites : List Expr) :
    GrowsBy (Filing.isUndefinedCall · = true)
      ((examinedNodes .shallow sites).filterMap (callFiling? defined))
      ((examinedNodes .deep sites).filterMap (callFiling? defined)) := by
  rw [examinedNodes, examinedNodes, List.filterMap_flatMap, List.filterMap_flatMap]
  refine GrowsBy.flatMap (fun site => ?_) sites
  exact GrowsBy.filterMap (fun _ _ => isUndefinedCall_of_callFiling?) site.examined_sublist

theorem filings_grow (program : Program) :
    GrowsBy (Filing.isUndefinedCall · = true) (program.filings .shallow)
      (program.filings .deep) := by
  refine (GrowsBy.refl _).append (GrowsBy.flatMap (fun item => ?_) program.items)
  exact (GrowsBy.refl _).append (callFilings_grow program.definesFunction item.sites)

/-- Filing is stopped exactly if there is something to stop it. -/
theorem isSome_fileUntil_true_iff (filings : List Filing) (log : DiagnosticLog) :
    (DiagnosticLog.fileUntil true filings log).1.isSome = true ↔
      ∃ filing ∈ filings, filing.isUndefinedCall = true := by
  rcases firstCall_cases filings with hnone | ⟨before, call, after, rfl, hbefore, hcall⟩
  · rw [DiagnosticLog.fileUntil_eq_fileAll fun filing hmem => by rw [hnone filing hmem]; rfl]
    simpa using hnone
  · rw [DiagnosticLog.fileUntil_true_of_call hbefore hcall]
    exact iff_of_true rfl ⟨call, List.mem_append_right before List.mem_cons_self, hcall⟩

/-- Without a stop, a deep look records what a shallow one records, in the same order,
with undefined calls added.  Where a shallow look is stopped, a deep one is as well. -/
theorem deep_adds_undefined_calls (program : Program) (first second : Nat) :
    let recorded (reach : CallReach) (id : Nat) :=
      (analyze { callReach := reach, stopAtUndefinedCall := false } program
        { entries := [], nextId := id }).2.entries.map fun entry =>
          (entry.kind, entry.message, entry.span)
    let stopped (reach : CallReach) (log : DiagnosticLog) :=
      (analyze { callReach := reach, stopAtUndefinedCall := true } program log).1.stoppedBy.isSome
    (recorded .shallow first).Sublist (recorded .deep second) ∧
      GrowsBy (fun said => said.1 = .undefinedCall) (recorded .shallow first)
        (recorded .deep second) ∧
      ∀ log other, stopped .shallow log = true → stopped .deep other = true := by
  intro recorded stopped
  have hrecorded : ∀ reach id, recorded reach id =
      (program.filings reach).map Filing.placed := by
    intro reach id
    simp only [recorded]
    rw [entries_analyze_of_not_stop, List.nil_append, Filing.map_numbered]
  have hstopped : ∀ reach log, stopped reach log = true ↔
      ∃ filing ∈ program.filings reach, filing.isUndefinedCall = true := by
    intro reach log
    have hrun := analyze_fileUntil { callReach := reach, stopAtUndefinedCall := true } program log
    rw [← isSome_fileUntil_true_iff _ log]
    exact iff_of_eq (congrArg (fun run => run.1.isSome = true) hrun)
  have hgrows := filings_grow program
  have hplaced : GrowsBy (fun said => said.1 = .undefinedCall) (recorded .shallow first)
      (recorded .deep second) := by
    rw [hrecorded, hrecorded]
    exact hgrows.map fun filing => of_decide_eq_true
  refine ⟨hplaced.sublist, hplaced, fun log other hshallow => ?_⟩
  obtain ⟨call, hmem, hcall⟩ := (hstopped .shallow log).mp hshallow
  exact (hstopped .deep other).mpr ⟨call, hgrows.sublist.subset hmem, hcall⟩

/-- A shallow look meets the outer calls and a deep one those in their arguments. -/
theorem deep_adds_undefined_calls_nested :
    let program := (parse "f(1+g(2));int x=h(k());".toList).program
    let kinds (reach : CallReach) :=
      (analyze { callReach := reach, stopAtUndefinedCall := false } program
        { entries := [], nextId := 0 }).2.entries.map Diagnostic.kind
    let stopped (reach : CallReach) :=
      (analyze { callReach := reach, stopAtUndefinedCall := true } program {}).1.stoppedBy.isSome
    (kinds .shallow).length = 4 ∧ (kinds .deep).length = 5 ∧
      stopped .shallow = true ∧ stopped .deep = true := by
  intro program kinds stopped
  have hshallow : stopped .shallow = true := by decide +kernel
  exact ⟨by decide +kernel, by decide +kernel, hshallow,
    (deep_adds_undefined_calls program 0 0).2.2 {} {} hshallow⟩

end DeclCheck
