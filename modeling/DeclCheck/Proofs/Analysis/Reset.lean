import DeclCheck.Proofs.Analysis.Recorded

/-!
# Resetting at the first undefined call

A check that resets stops at the first undefined call and then drops every entry but the
one with the number of that call.  No number is given twice, so what is left is the entry
under which a check that goes on to the end records the same call.
-/

namespace DeclCheck

/-- What a reset leaves of some entries: the first undefined call alone, and everything if
there is no such call. -/
def firstCallOnly (entries : List Diagnostic) : List Diagnostic :=
  match entries.find? (·.kind = .undefinedCall) with
  | some call => [call]
  | none => entries

theorem firstCallOnly_of_no_call {entries : List Diagnostic}
    (hnone : ∀ entry ∈ entries, entry.kind ≠ .undefinedCall) :
    firstCallOnly entries = entries := by
  have hfind : entries.find? (·.kind = .undefinedCall) = none := by
    simpa only [List.find?_eq_none, decide_eq_true_eq] using hnone
  rw [firstCallOnly, hfind]

theorem firstCallOnly_of_call {before after : List Diagnostic} {call : Diagnostic}
    (hbefore : ∀ entry ∈ before, entry.kind ≠ .undefinedCall)
    (hcall : call.kind = .undefinedCall) :
    firstCallOnly (before ++ call :: after) = [call] := by
  have hfind : (before ++ call :: after).find? (·.kind = .undefinedCall) = some call := by
    rw [List.find?_eq_some_iff_append]
    refine ⟨decide_eq_true hcall, before, after, rfl, fun entry hmem => ?_⟩
    simpa using hbefore entry hmem
  rw [firstCallOnly, hfind]

open DiagnosticLog

/-- An analysis that resets keeps the first undefined call among these entries, under the
number that it has there. -/
theorem entries_analyzeProgram_of_reset {options : CheckOptions} (program : Program)
    {log : DiagnosticLog} (hreset : options.resetOnUndefinedCall = true)
    (hlog : log.NumberedBelow) (hkinds : ∀ entry ∈ log.entries, entry.kind ≠ .undefinedCall) :
    (analyzeProgram options program log).2.entries =
      firstCallOnly
        (log.entries ++ Filing.numbered log.nextId (program.filings options.callReach)) := by
  rw [analyzeProgram_fileUntil, hreset, Bool.or_true]
  rcases firstCall_cases (program.filings options.callReach) with
    hnone | ⟨before, call, after, hfilings, hbefore, hcall⟩
  · have hkept : ∀ entry ∈
        log.entries ++ Filing.numbered log.nextId (program.filings options.callReach),
        entry.kind ≠ .undefinedCall :=
      List.forall_mem_append.mpr ⟨hkinds, Filing.kind_ne_of_mem_numbered hnone⟩
    rw [fileUntil_eq_fileAll hnone, firstCallOnly_of_no_call hkept, entries_fileAll]
  · have hearlier : ∀ entry ∈ log.entries ++ Filing.numbered log.nextId before,
        entry.kind ≠ .undefinedCall :=
      List.forall_mem_append.mpr ⟨hkinds, Filing.kind_ne_of_mem_numbered hbefore⟩
    have hkind : (call.entry (log.nextId + before.length)).kind = .undefinedCall :=
      of_decide_eq_true hcall
    have hfirst : firstCallOnly (log.entries ++
        Filing.numbered log.nextId (before ++ call :: after)) =
          [call.entry (log.nextId + before.length)] := by
      rw [Filing.numbered_append, Filing.numbered, ← List.append_assoc]
      exact firstCallOnly_of_call hearlier hkind
    -- the number at which the analysis stopped was given to the call alone
    have hkept := (hlog.fileAll before).entries_keepOnly_file call
    rw [nextId_fileAll] at hkept
    rw [hfilings, fileUntil_true_of_call hbefore hcall, hfirst, ← hkept, fileAll_append]
    rfl

theorem program_check (options : CheckOptions) (source : List Char) :
    (check options source).program = (parse source).program := by
  rw [check]
  split <;> rfl

/-- A check that resets reports the first undefined call that a check without a stop
reports, as the same entry, and nothing else; if there is none, it reports the same.  The
program and its scope are the same in any case. -/
theorem check_reset_firstCallOnly (reach : CallReach) (stop : Bool) (source : List Char) :
    let plain := check { callReach := reach, stopAtUndefinedCall := false,
                         resetOnUndefinedCall := false } source
    let reset := check { callReach := reach, stopAtUndefinedCall := stop,
                         resetOnUndefinedCall := true } source
    reset.diagnostics.entries = firstCallOnly plain.diagnostics.entries ∧
      reset.program = plain.program ∧
      reset.analysis.map Analysis.globals = plain.analysis.map Analysis.globals := by
  intro plain reset
  have hbelow : (addSourceErrors {} (parse source).errors).NumberedBelow :=
    NumberedBelow.addSourceErrors _ (List.forall_mem_nil _)
  have hkinds : ∀ entry ∈ (addSourceErrors {} (parse source).errors).entries,
      entry.kind ≠ .undefinedCall :=
    kind_ne_of_mem_addSourceErrors _ {} (List.forall_mem_nil _)
  have hprogram : reset.program = plain.program := by
    rw [program_check, program_check]
  by_cases hempty : (parse source).program.items.isEmpty = true
  · refine ⟨?_, hprogram, ?_⟩
    · simp only [plain, reset, check, hempty, if_true]
      exact (firstCallOnly_of_no_call hkinds).symm
    · simp only [plain, reset, check, hempty, if_true]
  · refine ⟨?_, hprogram, ?_⟩
    · simp only [plain, reset, check, hempty, Bool.false_eq_true, if_false]
      rw [entries_analyzeProgram_of_reset _ rfl hbelow hkinds,
        entries_analyzeProgram_of_not_stop _ _ rfl rfl]
    · simp only [plain, reset, check, hempty, Bool.false_eq_true, if_false, Option.map_some,
        globals_analyzeProgram]

end DeclCheck
