import DeclCheck.Proofs.Analysis.Recorded

/-!
# The history of a log

Whatever happens to a log comes down to three actions: a diagnostic is recorded, all are
dropped, or all but one.  Reading a source, checking a value and analyzing a program are
sequences of such actions, also where an undefined call resets the log.

An action keeps some of the entries and adds at most one, under the next number.  Over any
history a number is therefore given once, it stands for what was recorded under it for as
long as that is there, and what was dropped never comes back.
-/

namespace DeclCheck

/-! ## Actions -/

/-- What can be done to a log. -/
inductive LogAction where
  | record (kind : DiagnosticKind) (message : String) (line : Nat) (span : Option Span)
  | clear
  | keepOnly (id : Nat)
  deriving DecidableEq, Repr

namespace LogAction

def apply (log : DiagnosticLog) : LogAction → DiagnosticLog
  | record kind message line span => log.add kind message line span
  | clear => log.clear
  | keepOnly id => log.keepOnly id

/-- Whether an entry with the number stays if it is there. -/
def keeps (id : Nat) : LogAction → Bool
  | record .. => true
  | clear => false
  | keepOnly kept => id = kept

/-- The entry that the action makes in a log. -/
def entry? (log : DiagnosticLog) : LogAction → Option Diagnostic
  | record kind message line span =>
      some { id := log.nextId, kind := kind, message := message, line := line, span := span }
  | _ => none

/-- All that an action does to the entries. -/
theorem entries_apply (log : DiagnosticLog) (action : LogAction) :
    (action.apply log).entries =
      log.entries.filter (fun entry => action.keeps entry.id) ++
        (action.entry? log).toList := by
  cases action with
  | record kind message line span =>
      have hall : log.entries.filter (fun _ => true) = log.entries :=
        List.filter_eq_self.mpr fun _ _ => rfl
      simp only [apply, keeps, entry?, hall]
      rfl
  | clear => simp [apply, keeps, entry?, DiagnosticLog.clear]
  | keepOnly id => simp [apply, keeps, entry?, DiagnosticLog.keepOnly]

theorem nextId_apply (log : DiagnosticLog) (action : LogAction) :
    (action.apply log).nextId = log.nextId + (action.entry? log).toList.length := by
  cases action <;> rfl

theorem id_of_mem_entry? {log : DiagnosticLog} {action : LogAction} {entry : Diagnostic}
    (hentry : entry ∈ (action.entry? log).toList) : entry.id = log.nextId := by
  cases action with
  | record kind message line span =>
      rw [List.mem_singleton.mp hentry]
  | clear => cases hentry
  | keepOnly id => cases hentry

end LogAction

namespace DiagnosticLog

/-- Takes some actions, one after the other. -/
def perform (log : DiagnosticLog) (actions : List LogAction) : DiagnosticLog :=
  actions.foldl LogAction.apply log

/-- The entries that some actions make, in order, also those that are dropped again. -/
def recordedBy : DiagnosticLog → List LogAction → List Diagnostic
  | _, [] => []
  | log, action :: rest => (action.entry? log).toList ++ recordedBy (action.apply log) rest

theorem perform_append (log : DiagnosticLog) (first second : List LogAction) :
    log.perform (first ++ second) = (log.perform first).perform second :=
  List.foldl_append

/-! ## Numbers -/

/-- The numbers of the entries increase and are all given. -/
structure WellNumbered (log : DiagnosticLog) : Prop where
  increasing : log.entries.Pairwise fun first second => first.id < second.id
  below : log.NumberedBelow

theorem wellNumbered_empty : ({} : DiagnosticLog).WellNumbered :=
  ⟨.nil, List.forall_mem_nil _⟩

theorem WellNumbered.apply {log : DiagnosticLog} (hlog : log.WellNumbered)
    (action : LogAction) : (action.apply log).WellNumbered := by
  have hkept : ∀ entry ∈ log.entries.filter (fun entry => action.keeps entry.id),
      entry.id < log.nextId :=
    fun entry hmem => hlog.below entry (List.mem_filter.mp hmem).1
  constructor
  · rw [action.entries_apply, List.pairwise_append]
    refine ⟨hlog.increasing.filter _, ?_, ?_⟩
    · cases action.entry? log with
      | none => exact .nil
      | some entry => exact List.pairwise_singleton _ _
    · intro first hfirst second hsecond
      rw [LogAction.id_of_mem_entry? hsecond]
      exact hkept first hfirst
  · intro entry hmem
    rw [action.entries_apply, List.mem_append] at hmem
    rw [action.nextId_apply]
    rcases hmem with hmem | hmem
    · exact Nat.lt_add_right _ (hkept entry hmem)
    · rw [LogAction.id_of_mem_entry? hmem]
      exact Nat.lt_add_of_pos_right (List.length_pos_of_mem hmem)

theorem WellNumbered.perform (actions : List LogAction) :
    ∀ {log : DiagnosticLog}, log.WellNumbered → (log.perform actions).WellNumbered := by
  induction actions with
  | nil => exact fun hlog => hlog
  | cons action rest ih => exact fun hlog => ih (hlog.apply action)

/-- Numbers are given one after the other, each of them once. -/
theorem ids_recordedBy (actions : List LogAction) :
    ∀ log : DiagnosticLog, (log.recordedBy actions).map Diagnostic.id =
      List.range' log.nextId (log.recordedBy actions).length := by
  induction actions with
  | nil => exact fun log => rfl
  | cons action rest ih =>
      intro log
      have hrest := ih (action.apply log)
      rw [action.nextId_apply] at hrest
      have hfirst : (action.entry? log).toList.map Diagnostic.id =
          List.range' log.nextId (action.entry? log).toList.length := by
        cases action <;> rfl
      rw [recordedBy, List.map_append, hfirst, hrest, List.length_append,
        List.range'_append_1]

theorem nextId_perform (actions : List LogAction) :
    ∀ log : DiagnosticLog,
      (log.perform actions).nextId = log.nextId + (log.recordedBy actions).length := by
  induction actions with
  | nil => exact fun log => rfl
  | cons action rest ih =>
      intro log
      rw [perform, List.foldl_cons, ← perform, ih, action.nextId_apply, recordedBy,
        List.length_append, Nat.add_assoc]

theorem id_lt_of_mem_recordedBy {log : DiagnosticLog} {actions : List LogAction}
    {entry : Diagnostic} (hmem : entry ∈ log.recordedBy actions) :
    entry.id < (log.perform actions).nextId := by
  have hid := List.mem_map_of_mem (f := Diagnostic.id) hmem
  rw [ids_recordedBy, List.mem_range'_1] at hid
  rw [nextId_perform]
  exact hid.2

/-! ## Entries -/

/-- An action changes nothing about an entry whose number was given before, unless it drops
it. -/
theorem get?_apply {log : DiagnosticLog} {id : Nat} (hid : id < log.nextId)
    (action : LogAction) :
    (action.apply log).get? id = if action.keeps id then log.get? id else none := by
  have hnew : (action.entry? log).toList.find? (·.id = id) = none := by
    rw [List.find?_eq_none]
    intro entry hentry
    rw [LogAction.id_of_mem_entry? hentry, decide_eq_true_eq]
    exact Nat.ne_of_gt hid
  rw [get?, action.entries_apply, List.find?_append, hnew, Option.or_none, List.find?_filter]
  cases hkeeps : action.keeps id with
  | true =>
      rw [if_pos rfl, get?]
      congr 1
      funext entry
      by_cases hentry : entry.id = id
      · simp [hentry, hkeeps]
      · simp [hentry]
  | false =>
      rw [if_neg Bool.false_ne_true, List.find?_eq_none]
      intro entry _
      by_cases hentry : entry.id = id
      · simp [hentry, hkeeps]
      · simp [hentry]

theorem get?_perform (actions : List LogAction) {id : Nat} :
    ∀ {log : DiagnosticLog}, id < log.nextId →
      (log.perform actions).get? id =
        if actions.all (·.keeps id) then log.get? id else none := by
  induction actions with
  | nil => exact fun _ => rfl
  | cons action rest ih =>
      intro log hid
      have hgiven : id < (action.apply log).nextId := by
        rw [action.nextId_apply]
        exact Nat.lt_add_right _ hid
      rw [perform, List.foldl_cons, ← perform, ih hgiven, get?_apply hid, List.all_cons]
      cases action.keeps id <;> simp

/-- What was just recorded is found under its number. -/
theorem get?_of_mem_entry? {log : DiagnosticLog} (hlog : log.NumberedBelow)
    {action : LogAction} {entry : Diagnostic} (hentry : entry ∈ (action.entry? log).toList) :
    (action.apply log).get? entry.id = some entry := by
  have hold : (log.entries.filter fun other => action.keeps other.id).find?
      (·.id = entry.id) = none := by
    rw [List.find?_eq_none]
    intro other hother
    rw [LogAction.id_of_mem_entry? hentry, decide_eq_true_eq]
    exact Nat.ne_of_lt (hlog other (List.mem_filter.mp hother).1)
  rw [get?, action.entries_apply, List.find?_append, hold, Option.none_or,
    Option.mem_toList.mp hentry]
  simp

/-- A number stands for nothing but the entry that was recorded under it. -/
theorem get?_of_mem_recordedBy (actions : List LogAction) :
    ∀ {log : DiagnosticLog}, log.WellNumbered → ∀ {entry : Diagnostic},
      entry ∈ log.recordedBy actions →
      (log.perform actions).get? entry.id = none ∨
        (log.perform actions).get? entry.id = some entry := by
  induction actions with
  | nil =>
      intro log _ entry hmem
      cases hmem
  | cons action rest ih =>
      intro log hlog entry hmem
      rcases List.mem_append.mp hmem with hmem | hmem
      · have hfound := get?_of_mem_entry? hlog.below hmem
        have hgiven : entry.id < (action.apply log).nextId := by
          rw [LogAction.id_of_mem_entry? hmem, action.nextId_apply]
          exact Nat.lt_add_of_pos_right (List.length_pos_of_mem hmem)
        rw [perform, List.foldl_cons, ← perform, get?_perform rest hgiven, hfound]
        split
        · exact .inr rfl
        · exact .inl rfl
      · exact ih (hlog.apply action) hmem

end DiagnosticLog

/-! ## What the program does to a log -/

/-- The action that records an entry again, under the number that is next then. -/
def LogAction.ofEntry (entry : Diagnostic) : LogAction :=
  .record entry.kind entry.message entry.line entry.span

namespace DiagnosticLog

/-- The actions that make of one log another with more entries. -/
def additions (before after : DiagnosticLog) : List LogAction :=
  (after.entries.drop before.entries.length).map .ofEntry

/-- The ways in which the program uses a log. -/
inductive Operation where
  | addOnLine (kind : DiagnosticKind) (message : String) (line : Nat)
  | addAt (kind : DiagnosticKind) (message : String) (span : Span)
  | clear
  | keepOnly (id : Nat)
  | readSource (source : List Char)
  | checkValue (type text : String) (span : Span)
  | analyze (options : CheckOptions) (program : Program)

namespace Operation

def apply (log : DiagnosticLog) : Operation → DiagnosticLog
  | addOnLine kind message line => log.addOnLine kind message line
  | addAt kind message span => log.addAt kind message span
  | clear => log.clear
  | keepOnly id => log.keepOnly id
  | readSource source => log.addSourceErrors (parse source).errors
  | checkValue type text span => log.checkValue type text span
  | analyze options program => (analyzeProgram options program log).2

/-- The single actions of an operation.  An analysis with a reset adds all that it finds
before it drops anything. -/
def actions (log : DiagnosticLog) : Operation → List LogAction
  | clear => [.clear]
  | keepOnly id => [.keepOnly id]
  | analyze options program =>
      let stop := options.stopAtUndefinedCall || options.resetOnUndefinedCall
      let (analysis, found) :=
        DeclCheck.analyze { options.toAnalysisOptions with stopAtUndefinedCall := stop }
          program log
      log.additions found ++
        if options.resetOnUndefinedCall then analysis.stoppedBy.toList.map .keepOnly else []
  | operation => log.additions (operation.apply log)

end Operation

/-- The second log is the first with more recorded. -/
inductive Grows (before : DiagnosticLog) : DiagnosticLog → Prop where
  | refl : Grows before before
  | add {after : DiagnosticLog} (hgrows : Grows before after) (kind : DiagnosticKind)
      (message : String) (line : Nat) (span : Option Span) :
      Grows before (after.add kind message line span)

namespace Grows

variable {before after : DiagnosticLog}

theorem length_le (hgrows : before.Grows after) :
    before.entries.length ≤ after.entries.length := by
  induction hgrows with
  | refl => exact Nat.le_refl _
  | add _ kind message line span ih =>
      rw [DiagnosticLog.add, List.length_append]
      exact Nat.le_add_right_of_le ih

/-- The entries that are new say which actions were taken. -/
theorem eq_perform (hgrows : before.Grows after) :
    after = before.perform (before.additions after) := by
  induction hgrows with
  | refl => rw [additions, List.drop_length, List.map_nil, perform, List.foldl_nil]
  | @add after hgrows kind message line span ih =>
      have hadditions : before.additions (after.add kind message line span) =
          before.additions after ++ [.record kind message line span] := by
        rw [additions, DiagnosticLog.add, List.drop_append_of_le_length hgrows.length_le,
          List.map_append]
        rfl
      rw [hadditions, perform_append, ← ih]
      rfl

theorem addSourceErrors (errors : List SourceError) :
    ∀ {after : DiagnosticLog}, before.Grows after →
      before.Grows (after.addSourceErrors errors) := by
  induction errors with
  | nil => exact fun hgrows => hgrows
  | cons error rest ih => exact fun hgrows => ih (hgrows.add _ _ _ _)

theorem fileUntil (stop : Bool) (filings : List Filing) :
    ∀ {after : DiagnosticLog}, before.Grows after →
      before.Grows (fileUntil stop filings after).2 := by
  induction filings with
  | nil => exact fun hgrows => hgrows
  | cons filing rest ih =>
      intro after hgrows
      rw [DiagnosticLog.fileUntil]
      split
      · exact hgrows.add _ _ _ _
      · exact ih (hgrows.add _ _ _ _)

end Grows

theorem grows_analyze (options : AnalysisOptions) (program : Program) (log : DiagnosticLog) :
    log.Grows (analyze options program log).2 := by
  have hfiled := Grows.fileUntil options.stopAtUndefinedCall
    (program.filings options.callReach) (.refl : log.Grows log)
  rwa [← analyze_fileUntil] at hfiled

theorem grows_checkValue (log : DiagnosticLog) (type text : String) (span : Span) :
    log.Grows (log.checkValue type text span) := by
  rw [checkValue]
  split
  · exact .refl
  · exact .add .refl _ _ _ _

namespace Operation

/-- An operation is the sequence of its actions. -/
theorem apply_eq_perform (log : DiagnosticLog) (operation : Operation) :
    operation.apply log = log.perform (operation.actions log) := by
  cases operation with
  | addOnLine kind message line => exact (Grows.add .refl _ _ _ _).eq_perform
  | addAt kind message span => exact (Grows.add .refl _ _ _ _).eq_perform
  | clear => rfl
  | keepOnly id => rfl
  | readSource source => exact (Grows.addSourceErrors _ .refl).eq_perform
  | checkValue type text span => exact (grows_checkValue log type text span).eq_perform
  | analyze options program =>
      have hfound := (grows_analyze { options.toAnalysisOptions with
        stopAtUndefinedCall := options.stopAtUndefinedCall || options.resetOnUndefinedCall }
        program log).eq_perform
      rw [apply, analyzeProgram, actions, perform_append, ← hfound]
      generalize DeclCheck.analyze _ program log = result
      obtain ⟨analysis, found⟩ := result
      cases options.resetOnUndefinedCall with
      | false => rfl
      | true =>
          cases hstopped : analysis.stoppedBy <;> simp [hstopped, perform, LogAction.apply]

/-- The actions of some operations, one after the other. -/
def allActions : DiagnosticLog → List Operation → List LogAction
  | _, [] => []
  | log, operation :: rest =>
      operation.actions log ++ allActions (operation.apply log) rest

theorem allActions_append (first second : List Operation) :
    ∀ log : DiagnosticLog, allActions log (first ++ second) =
      allActions log first ++ allActions (first.foldl apply log) second := by
  induction first with
  | nil => exact fun log => rfl
  | cons operation rest ih =>
      intro log
      rw [List.cons_append, allActions, allActions, ih, List.append_assoc]
      rfl

theorem foldl_apply (operations : List Operation) :
    ∀ log : DiagnosticLog,
      operations.foldl apply log = log.perform (allActions log operations) := by
  induction operations with
  | nil => exact fun log => rfl
  | cons operation rest ih =>
      intro log
      rw [List.foldl_cons, ih, allActions, perform_append, ← apply_eq_perform]

end Operation

/-! ## Histories -/

/-- A log that was empty at first, after so many actions of some operations. -/
def logAt (operations : List Operation) (time : Nat) : DiagnosticLog :=
  perform {} ((Operation.allActions {} operations).take time)

/-- All that was recorded until then. -/
def recordedUntil (operations : List Operation) (time : Nat) : List Diagnostic :=
  recordedBy {} ((Operation.allActions {} operations).take time)

/-- A log goes through the states that the operations leave it in. -/
theorem logAt_append (first later : List Operation) :
    logAt (first ++ later) (Operation.allActions {} first).length =
      first.foldl Operation.apply {} := by
  rw [logAt, Operation.allActions_append, List.take_left, Operation.foldl_apply]

/-- What comes later is more of the same. -/
theorem logAt_of_le (operations : List Operation) {time later : Nat} (hlater : time ≤ later) :
    ∃ more, logAt operations later = (logAt operations time).perform more := by
  have htake := (List.take_prefix_take_left hlater :
    (Operation.allActions {} operations).take time <+: _)
  obtain ⟨more, hmore⟩ := htake
  refine ⟨more, ?_⟩
  rw [logAt, logAt, ← hmore, perform_append]

/-- Whatever is done to a log that was empty at first: the numbers in it increase and are
all given, each number is given once and none is left out, and what is found under a
number that was given is what was recorded under it or, from some time on, nothing. -/
theorem numbers_identify (operations : List Operation) :
    (∀ first later, operations = first ++ later →
      logAt operations (Operation.allActions {} first).length =
        first.foldl Operation.apply {}) ∧
    ∀ time,
      (logAt operations time).entries.Pairwise (fun first second => first.id < second.id) ∧
      (∀ entry ∈ (logAt operations time).entries,
        entry.id < (logAt operations time).nextId) ∧
      (recordedUntil operations time).map Diagnostic.id =
        List.range (logAt operations time).nextId ∧
      ∀ entry ∈ recordedUntil operations time,
        ((logAt operations time).get? entry.id = none ∨
          (logAt operations time).get? entry.id = some entry) ∧
        ∀ later, time ≤ later → (logAt operations time).get? entry.id = none →
          (logAt operations later).get? entry.id = none := by
  constructor
  · rintro first later rfl
    exact logAt_append first later
  · intro time
    have hnumbered : (logAt operations time).WellNumbered := wellNumbered_empty.perform _
    refine ⟨hnumbered.increasing, hnumbered.below, ?_, fun entry hmem => ⟨?_, ?_⟩⟩
    · rw [recordedUntil, ids_recordedBy, logAt, nextId_perform, List.range_eq_range',
        Nat.zero_add]
    · exact get?_of_mem_recordedBy _ wellNumbered_empty hmem
    · intro later hlater hgone
      obtain ⟨more, hmore⟩ := logAt_of_le operations hlater
      have hgiven : entry.id < (logAt operations time).nextId := id_lt_of_mem_recordedBy hmem
      rw [hmore, get?_perform more hgiven, hgone, ite_self]

/-- An undefined call takes the place of what was recorded before, and what it replaced
does not come back. -/
theorem numbers_identify_reset :
    let operations : List Operation :=
      [.addOnLine .syntaxError "early" 1,
        .analyze { resetOnUndefinedCall := true } ⟨[.expression default (.call default "f" [])]⟩,
        .addOnLine .syntaxError "late" 2]
    let early : Diagnostic := ⟨0, .syntaxError, "early", 1, none⟩
    early ∈ recordedUntil operations 3 ∧ (logAt operations 3).get? 0 = none ∧
      (logAt operations 4).get? 0 = none := by
  intro operations early
  have hrecorded : early ∈ recordedUntil operations 3 := by decide
  have hgone : (logAt operations 3).get? 0 = none := by decide
  exact ⟨hrecorded, hgone,
    (((numbers_identify operations).2 3).2.2.2 early hrecorded).2 4 (by decide) hgone⟩

end DiagnosticLog
end DeclCheck
