import DeclCheck.Check
import DeclCheck.Proofs.Analysis.Runs

/-!
# What a check records about the program

Under all options, what a check says of a program is cut out of one list, the list
of all that is to be filed about it: everything, everything up to the first
undefined call, or that call alone.  The errors of the source text that stand in the
log before make no difference.
-/

namespace DeclCheck

/-- What a filing says, without its place. -/
def Filing.said (filing : Filing) : DiagnosticKind × String :=
  (filing.finding.kind, filing.finding.message)

/-- What is kept of the filings about a program: with a reset only the first
undefined call, with a stop nothing after it. -/
def CheckOptions.kept (options : CheckOptions) (filings : List Filing) : List Filing :=
  match filings.find? Filing.isUndefinedCall with
  | none => filings
  | some call =>
      if options.resetOnUndefinedCall then [call]
      else if options.stopAtUndefinedCall then
        filings.takeWhile (!·.isUndefinedCall) ++ [call]
      else filings

/-- With a reset, an undefined call drops what was recorded before. -/
def CheckOptions.drops (options : CheckOptions) (filings : List Filing) : Bool :=
  options.resetOnUndefinedCall && filings.any Filing.isUndefinedCall

namespace CheckOptions

variable (options : CheckOptions)

theorem kept_of_no_call {filings : List Filing}
    (hnone : ∀ filing ∈ filings, filing.isUndefinedCall = false) :
    options.kept filings = filings := by
  have hfind : filings.find? Filing.isUndefinedCall = none := by
    rw [List.find?_eq_none]
    intro filing hmem
    rw [hnone filing hmem]
    exact Bool.false_ne_true
  rw [kept, hfind]

theorem kept_of_call {before after : List Filing} {call : Filing}
    (hbefore : ∀ filing ∈ before, filing.isUndefinedCall = false)
    (hcall : call.isUndefinedCall = true) :
    options.kept (before ++ call :: after) =
      if options.resetOnUndefinedCall then [call]
      else if options.stopAtUndefinedCall then before ++ [call]
      else before ++ call :: after := by
  have hfind : (before ++ call :: after).find? Filing.isUndefinedCall = some call := by
    rw [List.find?_append, List.find?_eq_none.mpr fun filing hmem => by
      rw [hbefore filing hmem]; exact Bool.false_ne_true]
    simp [hcall]
  have htake : (before ++ call :: after).takeWhile (!·.isUndefinedCall) = before := by
    rw [List.takeWhile_append_of_pos fun filing hmem => by rw [hbefore filing hmem]; rfl]
    simp [hcall]
  rw [kept, hfind]
  simp only [htake]

theorem mem_of_mem_kept {filings : List Filing} {filing : Filing}
    (hmem : filing ∈ options.kept filings) : filing ∈ filings := by
  rcases firstCall_cases filings with hnone | ⟨before, call, after, rfl, hbefore, hcall⟩
  · rwa [options.kept_of_no_call hnone] at hmem
  · rw [options.kept_of_call hbefore hcall] at hmem
    split at hmem
    · rw [List.mem_singleton.mp hmem]
      exact List.mem_append_right before List.mem_cons_self
    · split at hmem
      · rcases List.mem_append.mp hmem with hmem | hmem
        · exact List.mem_append_left _ hmem
        · rw [List.mem_singleton.mp hmem]
          exact List.mem_append_right before List.mem_cons_self
      · exact hmem

/-- Without a reset, what is filed before all calls is kept. -/
theorem kept_append_of_not_call {first : List Filing}
    (hreset : options.resetOnUndefinedCall = false)
    (hfirst : ∀ filing ∈ first, filing.isUndefinedCall = false) (second : List Filing) :
    options.kept (first ++ second) = first ++ options.kept second := by
  rcases firstCall_cases second with hnone | ⟨before, call, after, rfl, hbefore, hcall⟩
  · rw [options.kept_of_no_call hnone,
      options.kept_of_no_call (List.forall_mem_append.mpr ⟨hfirst, hnone⟩)]
  · rw [options.kept_of_call hbefore hcall, ← List.append_assoc,
      options.kept_of_call (List.forall_mem_append.mpr ⟨hfirst, hbefore⟩) hcall, hreset]
    cases options.stopAtUndefinedCall <;> simp

/-- A check that neither stops nor resets keeps all filings. -/
theorem kept_of_not_stop (hstop : options.stopAtUndefinedCall = false)
    (hreset : options.resetOnUndefinedCall = false) (filings : List Filing) :
    options.kept filings = filings := by
  rw [kept, hstop, hreset]
  cases filings.find? Filing.isUndefinedCall <;> rfl

theorem drops_of_not_reset (hreset : options.resetOnUndefinedCall = false)
    (filings : List Filing) : options.drops filings = false := by
  rw [drops, hreset, Bool.false_and]

/-- Relabelling filings that says the same about calls changes nothing about which
of them are kept. -/
theorem kept_map {relabel : Filing → Filing}
    (hrelabel : ∀ filing, (relabel filing).isUndefinedCall = filing.isUndefinedCall)
    (filings : List Filing) :
    options.kept (filings.map relabel) = (options.kept filings).map relabel := by
  rcases firstCall_cases filings with hnone | ⟨before, call, after, rfl, hbefore, hcall⟩
  · have hmapped : ∀ filing ∈ filings.map relabel, filing.isUndefinedCall = false := by
      intro filing hmem
      obtain ⟨original, horiginal, rfl⟩ := List.mem_map.mp hmem
      rw [hrelabel, hnone original horiginal]
    rw [kept_of_no_call options hmapped, kept_of_no_call options hnone]
  · have hmapped : ∀ filing ∈ before.map relabel, filing.isUndefinedCall = false := by
      intro filing hmem
      obtain ⟨original, horiginal, rfl⟩ := List.mem_map.mp hmem
      rw [hrelabel, hbefore original horiginal]
    rw [List.map_append, List.map_cons,
      kept_of_call options hmapped ((hrelabel call).trans hcall),
      kept_of_call options hbefore hcall]
    split
    · rfl
    · split <;> simp

end CheckOptions

namespace DiagnosticLog

/-- What a log says of the program: kind and message of its semantic entries, in
order. -/
def semanticFindings (log : DiagnosticLog) : List (DiagnosticKind × String) :=
  (log.entries.filter (·.kind.stage = .semantic)).map fun entry =>
    (entry.kind, entry.message)

/-- All numbers given so far are smaller than the next one. -/
def NumberedBelow (log : DiagnosticLog) : Prop :=
  ∀ entry ∈ log.entries, entry.id < log.nextId

theorem NumberedBelow.add {log : DiagnosticLog} (hlog : log.NumberedBelow)
    (kind : DiagnosticKind) (message : String) (line : Nat) (span : Option Span) :
    (log.add kind message line span).NumberedBelow := by
  intro entry hmem
  rcases List.mem_append.mp hmem with hold | hnew
  · exact Nat.lt_succ_of_lt (hlog entry hold)
  · rw [List.mem_singleton.mp hnew]
    exact Nat.lt_succ_self log.nextId

theorem NumberedBelow.addSourceErrors (errors : List SourceError) :
    ∀ {log : DiagnosticLog}, log.NumberedBelow →
      (log.addSourceErrors errors).NumberedBelow := by
  induction errors with
  | nil => exact fun hlog => hlog
  | cons error rest ih => exact fun hlog => ih (hlog.add _ _ _ _)

theorem NumberedBelow.fileAll (filings : List Filing) :
    ∀ {log : DiagnosticLog}, log.NumberedBelow → (log.fileAll filings).NumberedBelow := by
  induction filings with
  | nil => exact fun hlog => hlog
  | cons filing rest ih => exact fun hlog => ih (hlog.add _ _ _ _)

/-- Of a log to which a finding was just added, its number picks that finding and
nothing else. -/
theorem NumberedBelow.entries_keepOnly_file {log : DiagnosticLog}
    (hlog : log.NumberedBelow) (filing : Filing) :
    ((log.file filing.finding filing.span).keepOnly log.nextId).entries =
      [filing.entry log.nextId] := by
  have hold : log.entries.filter (·.id = log.nextId) = [] := by
    rw [List.filter_eq_nil_iff]
    intro entry hmem
    simpa using Nat.ne_of_lt (hlog entry hmem)
  change (log.entries ++ [filing.entry log.nextId]).filter (·.id = log.nextId) = _
  rw [List.filter_append, hold, List.nil_append]
  exact List.filter_cons_of_pos (decide_eq_true rfl)

theorem semanticFindings_addSourceErrors (errors : List SourceError) :
    ∀ log : DiagnosticLog,
      (log.addSourceErrors errors).semanticFindings = log.semanticFindings := by
  induction errors with
  | nil => exact fun log => rfl
  | cons error rest ih =>
      intro log
      have hfirst : (log.addSourceError error).semanticFindings = log.semanticFindings := by
        simp only [semanticFindings, addSourceError, addAt, add, List.filter_append]
        cases error <;> simp [DiagnosticKind.stage]
      exact (ih _).trans hfirst

theorem messages_addSourceErrors (errors : List SourceError) :
    ∀ log : DiagnosticLog, (log.addSourceErrors errors).entries.map Diagnostic.message =
      log.entries.map Diagnostic.message ++ errors.map SourceError.message := by
  induction errors with
  | nil => exact fun log => (List.append_nil _).symm
  | cons error rest ih =>
      intro log
      have hfirst : (log.addSourceError error).entries.map Diagnostic.message =
          log.entries.map Diagnostic.message ++ [error.message] :=
        List.map_append
      calc
        _ = (log.addSourceError error).entries.map Diagnostic.message ++
              rest.map SourceError.message := ih _
        _ = _ := by rw [hfirst, List.append_assoc, List.singleton_append, List.map_cons]

/-- An entry for an error of the source text has the place of the error, and is no
undefined call. -/
theorem exists_error_of_mem_addSourceErrors (errors : List SourceError) :
    ∀ log : DiagnosticLog, ∀ entry ∈ (log.addSourceErrors errors).entries,
      entry ∈ log.entries ∨ ∃ error ∈ errors, entry.kind ≠ .undefinedCall ∧
        entry.span = some error.span ∧ entry.line = error.span.line := by
  induction errors with
  | nil => exact fun log entry hmem => .inl hmem
  | cons error rest ih =>
      intro log entry hmem
      rcases ih (log.addSourceError error) entry hmem with hmem | ⟨other, hother, hentry⟩
      · rcases List.mem_append.mp hmem with hmem | hmem
        · exact .inl hmem
        · refine .inr ⟨error, List.mem_cons_self, ?_⟩
          rw [List.mem_singleton.mp hmem]
          cases error <;> exact ⟨DiagnosticKind.noConfusion, rfl, rfl⟩
      · exact .inr ⟨other, List.mem_cons_of_mem _ hother, hentry⟩

/-- Errors of the source text are no undefined calls. -/
theorem kind_ne_of_mem_addSourceErrors (errors : List SourceError) (log : DiagnosticLog)
    (hlog : ∀ entry ∈ log.entries, entry.kind ≠ .undefinedCall) :
    ∀ entry ∈ (log.addSourceErrors errors).entries, entry.kind ≠ .undefinedCall := by
  intro entry hmem
  rcases exists_error_of_mem_addSourceErrors errors log entry hmem with
    hmem | ⟨_, _, hkind, _⟩
  · exact hlog entry hmem
  · exact hkind

theorem semantic_kind (finding : Finding) : finding.kind.stage = .semantic := by
  cases finding <;> rfl

/-- Every filing becomes a semantic entry. -/
theorem semantic_numbered (filings : List Filing) (first : Nat) :
    ((Filing.numbered first filings).filter (·.kind.stage = .semantic)).map
      (fun entry => (entry.kind, entry.message)) = filings.map Filing.said := by
  have hsemantic : filings.filter (·.finding.kind.stage = .semantic) = filings :=
    List.filter_eq_self.mpr fun filing _ => decide_eq_true (semantic_kind filing.finding)
  have hnumbered := Filing.map_filter_numbered (fun kind => kind.stage = .semantic)
    (fun kind message _ => (kind, message)) filings first
  rw [hsemantic] at hnumbered
  exact hnumbered

end DiagnosticLog

open DiagnosticLog

/-- The log after an analysis, by where the filing of its findings ends: a reset
drops all but the finding that ends it. -/
theorem analyzeProgram_fileUntil (options : CheckOptions) (program : Program)
    (log : DiagnosticLog) :
    (analyzeProgram options program log).2 =
      match options.resetOnUndefinedCall,
        fileUntil (options.stopAtUndefinedCall || options.resetOnUndefinedCall)
          (program.filings options.callReach) log with
      | true, (some id, filed) => filed.keepOnly id
      | _, (_, filed) => filed := by
  rw [← analyze_fileUntil { options.toAnalysisOptions with
    stopAtUndefinedCall := options.stopAtUndefinedCall || options.resetOnUndefinedCall },
    analyzeProgram]
  generalize analyze _ program log = result
  cases options.resetOnUndefinedCall with
  | false => rfl
  | true =>
      obtain ⟨analysis, filed⟩ := result
      cases hstopped : analysis.stoppedBy <;> simp [hstopped]

/-- All entries that an analysis makes without a stop, the earlier ones included. -/
theorem entries_analyzeProgram_of_not_stop {options : CheckOptions} (program : Program)
    (log : DiagnosticLog) (hstop : options.stopAtUndefinedCall = false)
    (hreset : options.resetOnUndefinedCall = false) :
    (analyzeProgram options program log).2.entries =
      log.entries ++ Filing.numbered log.nextId (program.filings options.callReach) := by
  rw [analyzeProgram_fileUntil, hstop, hreset, Bool.or_false, fileUntil_false]
  exact entries_fileAll _ log

/-- What an analysis knows of the top level does not depend on its options. -/
theorem globals_analyzeProgram (options : CheckOptions) (program : Program)
    (log : DiagnosticLog) :
    (analyzeProgram options program log).1.globals =
      (enterDeclarations program ({}, log)).1 := by
  rw [analyzeProgram, analyze]
  dsimp only
  split <;> rfl

/-- An analysis adds what the options keep of the filings, after what was recorded
before or in its place. -/
theorem entries_analyzeProgram (options : CheckOptions) (program : Program)
    {log : DiagnosticLog} (hlog : log.NumberedBelow) :
    ∃ first, (analyzeProgram options program log).2.entries =
      (if options.drops (program.filings options.callReach) then [] else log.entries) ++
        Filing.numbered first (options.kept (program.filings options.callReach)) := by
  rcases firstCall_cases (program.filings options.callReach) with
    hcalls | ⟨before, call, after, hfilings, hbefore, hcall⟩
  · have hpass : ∀ filing ∈ program.filings options.callReach,
        ((options.stopAtUndefinedCall || options.resetOnUndefinedCall) &&
          filing.isUndefinedCall) = false := by
      intro filing hmem
      rw [hcalls filing hmem, Bool.and_false]
    have hfiled : (analyzeProgram options program log).2 =
        log.fileAll (program.filings options.callReach) := by
      rw [analyzeProgram_fileUntil, fileUntil_eq_fileAll hpass]
      cases options.resetOnUndefinedCall <;> rfl
    have hdrops : options.drops (program.filings options.callReach) = false := by
      rw [CheckOptions.drops, Bool.and_eq_false_iff, List.any_eq_false]
      exact .inr fun filing hmem => by simp [hcalls filing hmem]
    rw [hfiled, entries_fileAll, options.kept_of_no_call hcalls, hdrops,
      if_neg Bool.false_ne_true]
    exact ⟨log.nextId, rfl⟩
  · have hany : (before ++ call :: after).any Filing.isUndefinedCall = true := by
      simp [hcall]
    have hrun : fileUntil true (before ++ call :: after) log =
        (some (log.nextId + before.length), log.fileAll (before ++ [call])) :=
      fileUntil_true_of_call hbefore hcall log
    rw [analyzeProgram_fileUntil, hfilings, options.kept_of_call hbefore hcall,
      CheckOptions.drops, hany, Bool.and_true]
    cases options.resetOnUndefinedCall with
    | true =>
        -- the number of the call is the next one after all that came before it
        have hid : log.nextId + before.length = (log.fileAll before).nextId :=
          (nextId_fileAll before log).symm
        have hkept := (hlog.fileAll before).entries_keepOnly_file call
        simp only [Bool.or_true, hrun, if_true, fileAll_append, fileAll, hid, hkept,
          List.nil_append]
        exact ⟨_, rfl⟩
    | false =>
        cases options.stopAtUndefinedCall with
        | true =>
            simp only [Bool.or_false, hrun, entries_fileAll]
            exact ⟨_, rfl⟩
        | false =>
            simp only [Bool.or_false, fileUntil_false, entries_fileAll]
            exact ⟨_, rfl⟩

/-- A check records the errors of the source text and what the options keep of the
filings, unless it drops the former. -/
theorem entries_check (options : CheckOptions) (source : List Char) :
    let filings := (parse source).program.filings options.callReach
    ∃ first, (check options source).diagnostics.entries =
      (if options.drops filings then []
        else (DiagnosticLog.addSourceErrors {} (parse source).errors).entries) ++
        Filing.numbered first (options.kept filings) := by
  intro filings
  have hbelow : ({} : DiagnosticLog).NumberedBelow :=
    fun entry hmem => absurd hmem List.not_mem_nil
  rw [check]
  split
  · rename_i hempty
    have hitems : (parse source).program.items = [] := List.isEmpty_iff.mp hempty
    have hfilings : filings = [] := by
      simp only [filings, Program.filings, Program.declarationFilings, Program.functions,
        Program.globals, hitems]
      rfl
    have hkept : options.kept [] = [] :=
      options.kept_of_no_call fun filing hmem => absurd hmem List.not_mem_nil
    exists 0
    rw [hfilings, hkept, CheckOptions.drops, List.any_nil, Bool.and_false,
      if_neg Bool.false_ne_true, Filing.numbered, List.append_nil]
  · exact entries_analyzeProgram options _ (hbelow.addSourceErrors (parse source).errors)

/-- What a check says of the program does not depend on the errors of the source
text. -/
theorem semanticFindings_check (options : CheckOptions) (source : List Char) :
    (check options source).diagnostics.semanticFindings =
      (options.kept ((parse source).program.filings options.callReach)).map
        Filing.said := by
  obtain ⟨first, hentries⟩ := entries_check options source
  have hnone : (DiagnosticLog.addSourceErrors {} (parse source).errors).semanticFindings =
      [] := semanticFindings_addSourceErrors (parse source).errors {}
  rw [semanticFindings] at hnone
  rw [semanticFindings, hentries, List.filter_append, List.map_append, semantic_numbered]
  split
  · rw [List.filter_nil, List.map_nil, List.nil_append]
  · rw [hnone, List.nil_append]

/-- The errors of the source text are dropped exactly if, with a reset, an undefined
call is recorded. -/
theorem drops_iff (options : CheckOptions) (source : List Char) :
    options.drops ((parse source).program.filings options.callReach) = true ↔
      options.resetOnUndefinedCall = true ∧
        ∃ entry ∈ (check options source).diagnostics.entries,
          entry.kind = .undefinedCall := by
  obtain ⟨first, hentries⟩ := entries_check options source
  rw [CheckOptions.drops, Bool.and_eq_true]
  apply and_congr_right
  intro hreset
  rcases firstCall_cases ((parse source).program.filings options.callReach) with
    hcalls | ⟨before, call, after, hfilings, hbefore, hcall⟩
  · have hsource := kind_ne_of_mem_addSourceErrors (parse source).errors {}
      (List.forall_mem_nil _)
    have hnone : ∀ entry ∈ (check options source).diagnostics.entries,
        entry.kind ≠ .undefinedCall := by
      rw [hentries, options.kept_of_no_call hcalls, List.forall_mem_append]
      constructor
      · split
        · exact List.forall_mem_nil _
        · exact hsource
      · exact Filing.kind_ne_of_mem_numbered hcalls
    apply iff_of_false
    · simpa using hcalls
    · rintro ⟨entry, hmem, hkind⟩
      exact hnone entry hmem hkind
  · have hkept : call.entry first ∈ (check options source).diagnostics.entries := by
      rw [hentries, hfilings, options.kept_of_call hbefore hcall, if_pos hreset]
      exact List.mem_append_right _ List.mem_cons_self
    rw [hfilings]
    apply iff_of_true
    · simp [hcall]
    · exact ⟨_, hkept, of_decide_eq_true hcall⟩

end DeclCheck
