import DeclCheck.Analysis
import DeclCheck.Proofs.Program.Sites

/-!
# Analyses add to a log

An analysis only ever adds entries, and what it adds does not depend on what the log
holds already.  An analysis that goes on with a log makes the same findings in the same
order as one that starts with an empty log; only the numbers go on where the log left
off.

Every pass is followed once: started with what comes after an earlier log, it ends with
what comes after that log.
-/

namespace DeclCheck

namespace Diagnostic

/-- The same complaint under a number that is larger by `offset`. -/
def renumbered (offset : Nat) (entry : Diagnostic) : Diagnostic :=
  { entry with id := offset + entry.id }

end Diagnostic

namespace DiagnosticLog

/-- What a log becomes if its entries are recorded after those of an earlier one. -/
def after (log earlier : DiagnosticLog) : DiagnosticLog where
  entries := earlier.entries ++ log.entries.map (Diagnostic.renumbered earlier.nextId)
  nextId := earlier.nextId + log.nextId

@[simp]
theorem nextId_after (log earlier : DiagnosticLog) :
    (log.after earlier).nextId = earlier.nextId + log.nextId := rfl

theorem empty_after (earlier : DiagnosticLog) : ({} : DiagnosticLog).after earlier = earlier := by
  simp [after]

theorem file_after (earlier log : DiagnosticLog) (finding : Finding) (span : Span) :
    (log.after earlier).file finding span = (log.file finding span).after earlier := by
  simp [file, addAt, add, after, Diagnostic.renumbered, Nat.add_assoc]

theorem checkValue_after (earlier log : DiagnosticLog) (type text : String) (span : Span) :
    (log.after earlier).checkValue type text span =
      (log.checkValue type text span).after earlier := by
  by_cases hsuits : suits type text = true
  · simp only [checkValue, hsuits, if_true]
  · simp only [checkValue, hsuits, if_false, file_after, Bool.false_eq_true]

end DiagnosticLog

open DiagnosticLog

variable {σ : Type}

/-- The state of a pass, with its log put after an earlier one. -/
def putAfter (earlier : DiagnosticLog) (state : σ × DiagnosticLog) : σ × DiagnosticLog :=
  (state.1, state.2.after earlier)

/-! ## Declarations -/

theorem enterFunction_putAfter (earlier : DiagnosticLog)
    (state : ProgramScope × DiagnosticLog) (function : FunctionDecl) :
    enterFunction (putAfter earlier state) function =
      putAfter earlier (enterFunction state function) := by
  cases hadded : state.1.addFunction? (Signature.ofFunction function) with
  | some extended => simp only [enterFunction, putAfter, hadded]
  | none => simp only [enterFunction, putAfter, hadded, file_after]

theorem enterGlobal_putAfter (earlier : DiagnosticLog)
    (state : ProgramScope × DiagnosticLog) (decl : VariableDecl) :
    enterGlobal (putAfter earlier state) decl =
      putAfter earlier (enterGlobal state decl) := by
  cases hadded : state.1.addVariable? decl.name with
  | some extended =>
      cases hinit : decl.init with
      | some value => simp only [enterGlobal, putAfter, hadded, hinit, checkValue_after]
      | none => simp only [enterGlobal, putAfter, hadded, hinit]
  | none =>
      cases hinit : decl.init with
      | some value =>
          simp only [enterGlobal, putAfter, hadded, hinit, file_after, checkValue_after]
      | none => simp only [enterGlobal, putAfter, hadded, hinit, file_after]

theorem enterDeclarations_putAfter (earlier : DiagnosticLog) (program : Program)
    (state : ProgramScope × DiagnosticLog) :
    enterDeclarations program (putAfter earlier state) =
      putAfter earlier (enterDeclarations program state) := by
  have hfunctions : program.functions.foldl enterFunction (putAfter earlier state) =
      putAfter earlier (program.functions.foldl enterFunction state) :=
    List.foldl_hom (putAfter earlier) (enterFunction_putAfter earlier)
  rw [enterDeclarations, hfunctions]
  exact List.foldl_hom (putAfter earlier) (enterGlobal_putAfter earlier)

theorem enterLocal_putAfter (earlier : DiagnosticLog) (state : BodyScope × DiagnosticLog)
    (decl : VariableDecl) :
    enterLocal (putAfter earlier state) decl =
      putAfter earlier (enterLocal state decl) := by
  cases hshadows : state.1.knowsParameter decl.name with
  | true =>
      cases hadded : state.1.addLocal? decl.name with
      | some extended =>
          simp only [enterLocal, putAfter, hshadows, hadded, if_true, file_after]
      | none => simp only [enterLocal, putAfter, hshadows, hadded, if_true, file_after]
  | false =>
      cases hadded : state.1.addLocal? decl.name with
      | some extended =>
          simp only [enterLocal, putAfter, hshadows, hadded, Bool.false_eq_true, if_false]
      | none =>
          simp only [enterLocal, putAfter, hshadows, hadded, Bool.false_eq_true, if_false,
            file_after]

theorem checkBody_after (earlier log : DiagnosticLog) (function : FunctionDecl) :
    checkBody function (log.after earlier) = putAfter earlier (checkBody function log) := by
  have hstart : ∀ scope : BodyScope,
      (scope, log.after earlier) = putAfter earlier (scope, log) := fun _ => rfl
  simp only [checkBody, hstart]
  exact List.foldl_hom (putAfter earlier) (enterLocal_putAfter earlier)

/-! ## Calls and items -/

theorem checkCalls_after (scope : ProgramScope) (stop : Bool) (earlier : DiagnosticLog)
    (nodes : List Expr) :
    ∀ log : DiagnosticLog, checkCalls scope stop nodes (log.after earlier) =
      ((checkCalls scope stop nodes log).1.map (earlier.nextId + ·),
        (checkCalls scope stop nodes log).2.after earlier) := by
  induction nodes with
  | nil => exact fun log => rfl
  | cons node rest ih =>
      intro log
      cases hcallee : undefinedCallee? scope node with
      | none => simp only [checkCalls, hcallee, ih]
      | some name =>
          cases stop with
          | true => simp only [checkCalls, hcallee, if_true, file_after, Option.map_some, nextId_after]
          | false =>
              simp only [checkCalls, hcallee, Bool.false_eq_true, if_false, file_after, ih]

/-- What a visit leaves behind, with its log put after an earlier one. -/
def Visit.putAfter (earlier : DiagnosticLog) (visit : Visit) : Visit where
  diagnostics := visit.diagnostics.after earlier
  bodies := visit.bodies
  stoppedBy := visit.stoppedBy.map (earlier.nextId + ·)

theorem visitItem_after (options : AnalysisOptions) (scope : ProgramScope) (item : Item)
    (earlier log : DiagnosticLog) :
    visitItem options scope item (log.after earlier) =
      (visitItem options scope item log).putAfter earlier := by
  cases item with
  | function decl =>
      simp only [visitItem, checkBody_after, DeclCheck.putAfter, checkItemCalls_eq,
        checkCalls_after, Visit.putAfter]
  | global decl => simp only [visitItem, checkItemCalls_eq, checkCalls_after, Visit.putAfter]
  | expression span expr =>
      simp only [visitItem, checkItemCalls_eq, checkCalls_after, Visit.putAfter]

theorem visitItems_after (options : AnalysisOptions) (scope : ProgramScope)
    (earlier : DiagnosticLog) (items : List Item) :
    ∀ log : DiagnosticLog, visitItems options scope items (log.after earlier) =
      (visitItems options scope items log).putAfter earlier := by
  induction items with
  | nil => exact fun log => rfl
  | cons item rest ih =>
      intro log
      rw [visitItems, visitItems, visitItem_after]
      cases hstopped : (visitItem options scope item log).stoppedBy with
      | some id => simp only [Visit.putAfter, hstopped, Option.map_some]
      | none =>
          simp only [Visit.putAfter, hstopped, Option.map_none]
          rw [ih]
          rfl

/-! ## Whole analyses -/

/-- An analysis adds to a log what it finds when it starts with an empty one, under
numbers that go on after those of the log, and knows the same of the program. -/
theorem analyze_additive (options : AnalysisOptions) (program : Program)
    (log : DiagnosticLog) :
    let fresh := analyze options program {}
    let added := analyze options program log
    added.2.entries = log.entries ++
        fresh.2.entries.map (fun entry => { entry with id := log.nextId + entry.id }) ∧
      added.2.nextId = log.nextId + fresh.2.nextId ∧
      added.1.stoppedBy = fresh.1.stoppedBy.map (log.nextId + ·) ∧
      added.1.globals = fresh.1.globals ∧
      added.1.bodies = fresh.1.bodies := by
  intro fresh added
  have hdeclared : enterDeclarations program ({}, log) =
      putAfter log (enterDeclarations program ({}, {})) := by
    rw [← enterDeclarations_putAfter, putAfter, empty_after]
  have hadded : added =
      ({ fresh.1 with stoppedBy := fresh.1.stoppedBy.map (log.nextId + ·) },
        fresh.2.after log) := by
    simp only [added, fresh, analyze, hdeclared, putAfter, visitItems_after, Visit.putAfter]
  rw [hadded]
  exact ⟨rfl, rfl, rfl, rfl, rfl⟩

end DeclCheck
