import DeclCheck.Proofs.Analysis.Runs

/-!
# Stopping at the first undefined call

An analysis that stops at the first undefined call and one that does not make the
same findings up to and with that call.  Only what comes after it is missing.
-/

namespace DeclCheck

open DiagnosticLog

/-- Stopping cuts the entries right after the first new undefined call, and
changes nothing if there is none. -/
theorem analyze_stop_truncates (reach : CallReach) (program : Program)
    (log : DiagnosticLog) :
    let full := analyze { callReach := reach, stopAtUndefinedCall := false } program log
    let cut := analyze { callReach := reach, stopAtUndefinedCall := true } program log
    ∃ added, full.2.entries = log.entries ++ added ∧ full.1.stoppedBy = none ∧
      cut.1.globals = full.1.globals ∧
      ((∀ entry ∈ added, entry.kind ≠ .undefinedCall) ∧
          cut.2 = full.2 ∧ cut.1.stoppedBy = none ∨
        ∃ before call after, added = before ++ call :: after ∧
          (∀ entry ∈ before, entry.kind ≠ .undefinedCall) ∧
          call.kind = .undefinedCall ∧
          cut.2.entries = log.entries ++ before ++ [call] ∧
          cut.2.nextId = call.id + 1 ∧ cut.1.stoppedBy = some call.id) := by
  intro full cut
  have hfull : (full.1.stoppedBy, full.2) = (none, log.fileAll (program.filings reach)) :=
    (analyze_fileUntil _ program log).trans (fileUntil_false _ log)
  have hcut : (cut.1.stoppedBy, cut.2) = fileUntil true (program.filings reach) log :=
    analyze_fileUntil _ program log
  obtain ⟨hfullStopped, hfullLog⟩ := Prod.mk.inj hfull
  refine ⟨Filing.numbered log.nextId (program.filings reach), ?_, hfullStopped, rfl, ?_⟩
  · rw [hfullLog, entries_fileAll]
  rcases firstCall_cases (program.filings reach) with
    hnone | ⟨before, call, after, hfilings, hbefore, hcall⟩
  · have hall : fileUntil true (program.filings reach) log =
        (none, log.fileAll (program.filings reach)) :=
      fileUntil_eq_fileAll hnone log
    obtain ⟨hcutStopped, hcutLog⟩ := Prod.mk.inj (hcut.trans hall)
    exact .inl ⟨Filing.kind_ne_of_mem_numbered hnone, hcutLog.trans hfullLog.symm,
      hcutStopped⟩
  · rw [hfilings, fileUntil_true_of_call hbefore hcall] at hcut
    obtain ⟨hcutStopped, hcutLog⟩ := Prod.mk.inj hcut
    have hnumbered : Filing.numbered log.nextId (before ++ [call]) =
        Filing.numbered log.nextId before ++ [call.entry (log.nextId + before.length)] :=
      Filing.numbered_append before [call] log.nextId
    refine .inr ⟨Filing.numbered log.nextId before,
      call.entry (log.nextId + before.length),
      Filing.numbered (log.nextId + before.length + 1) after, ?_,
      Filing.kind_ne_of_mem_numbered hbefore, of_decide_eq_true hcall, ?_, ?_, hcutStopped⟩
    · rw [hfilings, Filing.numbered_append]
      rfl
    · rw [hcutLog, entries_fileAll, hnumbered, List.append_assoc]
    · rw [hcutLog, nextId_fileAll, List.length_append]
      rfl

end DeclCheck
