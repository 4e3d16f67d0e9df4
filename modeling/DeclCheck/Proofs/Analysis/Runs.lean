import DeclCheck.Proofs.Analysis.Filings
import DeclCheck.Proofs.Program.Sites

/-!
# What a whole analysis files

The findings of an analysis are a list that depends on the program and on how far
calls are looked for, and on nothing else.  An analysis that stops at the first
undefined call goes through the same list and leaves off after that call.
-/

namespace DeclCheck

/-- Whether some function of the program has the name. -/
def Program.definesFunction (program : Program) (name : String) : Bool :=
  program.functions.any (·.name = name)

theorem definesFunction_iff {program : Program} {name : String} :
    program.definesFunction name = true ↔
      ∃ function ∈ program.functions, function.name = name := by
  rw [Program.definesFunction, List.any_eq_true]
  simp only [decide_eq_true_eq]

/-- What is filed about a node, given which functions are defined. -/
def callFiling? (defined : String → Bool) (node : Expr) : Option Filing :=
  (node.callee?.filter fun name => !defined name).map fun name =>
    ⟨.undefinedCall name, node.span⟩

/-- What is filed about an item on its own: about its locals, then about its
calls. -/
def Item.filings (reach : CallReach) (defined : String → Bool) (item : Item) :
    List Filing :=
  (item.function?.toList.flatMap FunctionDecl.bodyFilings) ++
    (examinedNodes reach item.sites).filterMap (callFiling? defined)

/-- Everything that is to be filed about a program, in order. -/
def Program.filings (program : Program) (reach : CallReach) : List Filing :=
  program.declarationFilings ++
    program.items.flatMap (Item.filings reach program.definesFunction)

namespace DiagnosticLog

/-- Files findings in order.  With `stop` the first undefined call is the last one
filed, and its number is answered. -/
def fileUntil (stop : Bool) : List Filing → DiagnosticLog → Option Nat × DiagnosticLog
  | [], log => (none, log)
  | filing :: rest, log =>
      let filed := log.file filing.finding filing.span
      if stop && filing.isUndefinedCall then (some log.nextId, filed)
      else fileUntil stop rest filed

/-- Later findings are filed only if no earlier one was the last. -/
theorem fileUntil_append (stop : Bool) (first second : List Filing) :
    ∀ log : DiagnosticLog, fileUntil stop (first ++ second) log =
      match fileUntil stop first log with
      | (some id, filed) => (some id, filed)
      | (none, filed) => fileUntil stop second filed := by
  induction first with
  | nil => exact fun log => rfl
  | cons filing rest ih =>
      intro log
      rw [List.cons_append, fileUntil, fileUntil]
      by_cases hlast : (stop && filing.isUndefinedCall) = true
      · simp only [hlast, if_true]
      · simp only [hlast, Bool.false_eq_true, if_false]
        exact ih _

/-- Where nothing stops it, everything is filed. -/
theorem fileUntil_eq_fileAll {stop : Bool} {filings : List Filing}
    (hpass : ∀ filing ∈ filings, (stop && filing.isUndefinedCall) = false) :
    ∀ log : DiagnosticLog, fileUntil stop filings log = (none, log.fileAll filings) := by
  induction filings with
  | nil => exact fun log => rfl
  | cons filing rest ih =>
      intro log
      have hfirst := hpass filing List.mem_cons_self
      rw [fileUntil, hfirst]
      exact ih (fun other hmem => hpass other (List.mem_cons_of_mem _ hmem)) _

theorem fileUntil_false (filings : List Filing) (log : DiagnosticLog) :
    fileUntil false filings log = (none, log.fileAll filings) :=
  fileUntil_eq_fileAll (fun _ _ => Bool.false_and _) log

/-- Findings of other kinds are filed in any case. -/
theorem fileUntil_append_of_not_call (stop : Bool) {first : List Filing}
    (hfirst : ∀ filing ∈ first, filing.isUndefinedCall = false)
    (second : List Filing) (log : DiagnosticLog) :
    fileUntil stop (first ++ second) log = fileUntil stop second (log.fileAll first) := by
  have hfiled : fileUntil stop first log = (none, log.fileAll first) := by
    refine fileUntil_eq_fileAll (fun filing hmem => ?_) log
    rw [hfirst filing hmem, Bool.and_false]
  rw [fileUntil_append, hfiled]

/-- An undefined call after findings of other kinds is the last one filed. -/
theorem fileUntil_true_of_call {before after : List Filing} {call : Filing}
    (hbefore : ∀ filing ∈ before, filing.isUndefinedCall = false)
    (hcall : call.isUndefinedCall = true) (log : DiagnosticLog) :
    fileUntil true (before ++ call :: after) log =
      (some (log.nextId + before.length), log.fileAll (before ++ [call])) := by
  rw [fileUntil_append_of_not_call true hbefore, fileAll_append]
  simp only [fileUntil, hcall, Bool.and_self, if_true, nextId_fileAll]
  rfl

end DiagnosticLog

/-- The first undefined call among some findings, with what comes before and after
it. -/
theorem firstCall_cases (filings : List Filing) :
    (∀ filing ∈ filings, filing.isUndefinedCall = false) ∨
      ∃ before call after, filings = before ++ call :: after ∧
        (∀ filing ∈ before, filing.isUndefinedCall = false) ∧
        call.isUndefinedCall = true := by
  induction filings with
  | nil => exact .inl (fun filing hmem => absurd hmem List.not_mem_nil)
  | cons filing rest ih =>
      cases hfiling : filing.isUndefinedCall with
      | true => exact .inr ⟨[], filing, rest, rfl, by simp, hfiling⟩
      | false =>
          rcases ih with hnone | ⟨before, call, after, rfl, hbefore, hcall⟩
          · exact .inl (List.forall_mem_cons.mpr ⟨hfiling, hnone⟩)
          · exact .inr ⟨filing :: before, call, after, rfl,
              List.forall_mem_cons.mpr ⟨hfiling, hbefore⟩, hcall⟩

/-! ## Declarations are not calls -/

theorem eq_of_mem_ite {α : Type} {condition : Prop} [Decidable condition]
    {value other : α} (hmem : value ∈ if condition then [other] else []) :
    value = other := by
  split at hmem
  · exact List.mem_singleton.mp hmem
  · cases hmem

theorem valueFilings_not_call (decl : VariableDecl) :
    ∀ filing ∈ decl.valueFilings, filing.isUndefinedCall = false := by
  intro filing hmem
  rw [VariableDecl.valueFilings] at hmem
  split at hmem
  · split at hmem
    · cases hmem
    · rw [List.mem_singleton.mp hmem]
      rfl
  · cases hmem

theorem declarationFilings_not_call (program : Program) :
    ∀ filing ∈ program.declarationFilings, filing.isUndefinedCall = false := by
  intro filing hmem
  rcases List.mem_append.mp hmem with hmem | hmem
  · obtain ⟨flagged, _, hfiling⟩ := List.mem_flatMap.mp hmem
    rw [eq_of_mem_ite hfiling]
    rfl
  · obtain ⟨flagged, _, hfiling⟩ := List.mem_flatMap.mp hmem
    rcases List.mem_append.mp hfiling with hfiling | hfiling
    · rw [eq_of_mem_ite hfiling]
      rfl
    · exact valueFilings_not_call flagged.1 filing hfiling

theorem bodyFilings_not_call (function : FunctionDecl) :
    ∀ filing ∈ function.bodyFilings, filing.isUndefinedCall = false := by
  intro filing hmem
  obtain ⟨flagged, _, hfiling⟩ := List.mem_flatMap.mp hmem
  rcases List.mem_append.mp hfiling with hfiling | hfiling
  · rw [eq_of_mem_ite hfiling]
    rfl
  · rw [eq_of_mem_ite hfiling]
    rfl

theorem itemBodyFilings_not_call (item : Item) :
    ∀ filing ∈ item.function?.toList.flatMap FunctionDecl.bodyFilings,
      filing.isUndefinedCall = false := by
  intro filing hmem
  obtain ⟨function, _, hfiling⟩ := List.mem_flatMap.mp hmem
  exact bodyFilings_not_call function filing hfiling

/-! ## Calls, items and programs -/

open DiagnosticLog

/-- An undefined call is all that is ever filed about a node. -/
theorem isUndefinedCall_of_callFiling? {defined : String → Bool} {node : Expr}
    {filing : Filing} (hfiling : callFiling? defined node = some filing) :
    filing.isUndefinedCall = true := by
  obtain ⟨name, _, rfl⟩ := Option.map_eq_some_iff.mp hfiling
  rfl

theorem checkCalls_fileUntil (scope : ProgramScope) (stop : Bool)
    (nodes : List Expr) :
    ∀ log : DiagnosticLog, checkCalls scope stop nodes log =
      fileUntil stop (nodes.filterMap (callFiling? scope.knowsFunction)) log := by
  induction nodes with
  | nil => exact fun log => rfl
  | cons node rest ih =>
      intro log
      rw [checkCalls, List.filterMap_cons, callFiling?, ← undefinedCallee?]
      cases undefinedCallee? scope node with
      | none => exact ih log
      | some name =>
          cases stop with
          | true => rfl
          | false => exact ih _

theorem visitItem_fileUntil (options : AnalysisOptions) (scope : ProgramScope)
    (item : Item) (log : DiagnosticLog) :
    ((visitItem options scope item log).stoppedBy,
        (visitItem options scope item log).diagnostics) =
      fileUntil options.stopAtUndefinedCall
        (item.filings options.callReach scope.knowsFunction) log := by
  rw [Item.filings, fileUntil_append_of_not_call _ (itemBodyFilings_not_call item),
    ← checkCalls_fileUntil, ← checkItemCalls_eq]
  cases item with
  | function decl =>
      have hchecked := checkBody_files decl log
      simp only [visitItem, Item.function?, Option.toList_some, List.flatMap_cons,
        List.flatMap_nil, List.append_nil, ← hchecked]
  | global decl => rfl
  | expression span expr => rfl

theorem visitItems_fileUntil (options : AnalysisOptions) (scope : ProgramScope)
    (items : List Item) :
    ∀ log : DiagnosticLog,
      ((visitItems options scope items log).stoppedBy,
          (visitItems options scope items log).diagnostics) =
        fileUntil options.stopAtUndefinedCall
          (items.flatMap (Item.filings options.callReach scope.knowsFunction)) log := by
  induction items with
  | nil => exact fun log => rfl
  | cons item rest ih =>
      intro log
      rw [List.flatMap_cons, fileUntil_append, ← visitItem_fileUntil, visitItems]
      cases hstopped : (visitItem options scope item log).stoppedBy with
      | some id => simp only [hstopped]
      | none => exact ih _

/-- An analysis files the findings of the program, up to where it stops. -/
theorem analyze_fileUntil (options : AnalysisOptions) (program : Program)
    (log : DiagnosticLog) :
    ((analyze options program log).1.stoppedBy, (analyze options program log).2) =
      fileUntil options.stopAtUndefinedCall (program.filings options.callReach) log := by
  have hdefined : (enterDeclarations program ({}, log)).1.knowsFunction =
      program.definesFunction := by
    funext name
    rw [Bool.eq_iff_iff, knowsFunction_enterDeclarations, definesFunction_iff]
  rw [Program.filings,
    fileUntil_append_of_not_call _ (declarationFilings_not_call program), ← hdefined,
    ← enterDeclarations_files]
  exact visitItems_fileUntil options _ program.items _

/-- All entries after an analysis without a stop, the earlier ones included. -/
theorem entries_analyze_of_not_stop (reach : CallReach) (program : Program)
    (log : DiagnosticLog) :
    (analyze { callReach := reach, stopAtUndefinedCall := false } program log).2.entries =
      log.entries ++ Filing.numbered log.nextId (program.filings reach) := by
  have hrun := analyze_fileUntil { callReach := reach, stopAtUndefinedCall := false } program log
  rw [fileUntil_false] at hrun
  rw [(Prod.ext_iff.mp hrun).2]
  exact entries_fileAll _ log

end DeclCheck
