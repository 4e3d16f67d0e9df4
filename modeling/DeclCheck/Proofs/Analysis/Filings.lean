import DeclCheck.Analysis

/-!
# What the declaration passes file

A pass over declarations files findings that do not depend on what the log holds
already.  All passes have the same shape: they go through some declarations, know
the keys of those seen so far, and file something about each declaration that
depends on whether its key was seen.
-/

namespace DeclCheck

/-- A finding and the region it is about, before it has a number. -/
structure Filing where
  finding : Finding
  span : Span
  deriving DecidableEq, Repr

namespace Filing

/-- The diagnostic that a filing becomes under a number. -/
def entry (filing : Filing) (id : Nat) : Diagnostic where
  id := id
  kind := filing.finding.kind
  message := filing.finding.message
  line := filing.span.line
  span := some filing.span

/-- What a filing says, with its place. -/
def placed (filing : Filing) : DiagnosticKind × String × Option Span :=
  (filing.finding.kind, filing.finding.message, some filing.span)

def isUndefinedCall (filing : Filing) : Bool :=
  filing.finding.kind = .undefinedCall

/-- The diagnostics that some filings become, numbered from `id` on. -/
def numbered : Nat → List Filing → List Diagnostic
  | _, [] => []
  | id, filing :: rest => filing.entry id :: numbered (id + 1) rest

theorem numbered_append (first second : List Filing) :
    ∀ id, numbered id (first ++ second) =
      numbered id first ++ numbered (id + first.length) second := by
  induction first with
  | nil => exact fun id => rfl
  | cons filing rest ih =>
      intro id
      rw [List.cons_append, numbered, ih, numbered, List.cons_append,
        List.length_cons, Nat.add_right_comm, Nat.add_assoc]

theorem exists_of_mem_numbered {filings : List Filing} {entry : Diagnostic} :
    ∀ {id : Nat}, entry ∈ numbered id filings →
      ∃ filing ∈ filings, ∃ number, entry = filing.entry number := by
  induction filings with
  | nil =>
      intro id hmem
      cases hmem
  | cons filing rest ih =>
      intro id hmem
      rcases List.mem_cons.mp hmem with rfl | hmem
      · exact ⟨filing, List.mem_cons_self, id, rfl⟩
      · obtain ⟨other, hother, number, rfl⟩ := ih hmem
        exact ⟨other, List.mem_cons_of_mem _ hother, number, rfl⟩

/-- Numbering keeps what is an undefined call and what is not. -/
theorem kind_ne_of_mem_numbered {filings : List Filing} {id : Nat}
    (hfilings : ∀ filing ∈ filings, filing.isUndefinedCall = false) :
    ∀ entry ∈ numbered id filings, entry.kind ≠ .undefinedCall := by
  intro entry hmem
  obtain ⟨filing, hfiling, number, rfl⟩ := exists_of_mem_numbered hmem
  exact of_decide_eq_false (hfilings filing hfiling)

/-- What the entries of some kinds say, their numbers apart, can be told from the
filings. -/
theorem map_filter_numbered {β : Type} (select : DiagnosticKind → Bool)
    (view : DiagnosticKind → String → Option Span → β) (filings : List Filing) :
    ∀ id, ((numbered id filings).filter fun entry => select entry.kind).map
        (fun entry => view entry.kind entry.message entry.span) =
      (filings.filter fun filing => select filing.finding.kind).map fun filing =>
        view filing.finding.kind filing.finding.message (some filing.span) := by
  induction filings with
  | nil => exact fun id => rfl
  | cons filing rest ih =>
      intro id
      have hkind : (filing.entry id).kind = filing.finding.kind := rfl
      rw [numbered, List.filter_cons, List.filter_cons, hkind]
      cases select filing.finding.kind with
      | true =>
          rw [if_pos rfl, if_pos rfl, List.map_cons, List.map_cons, ih]
          rfl
      | false =>
          rw [if_neg Bool.false_ne_true, if_neg Bool.false_ne_true]
          exact ih (id + 1)

/-- The entries say what the filings say. -/
theorem map_numbered (filings : List Filing) (id : Nat) :
    (numbered id filings).map (fun entry => (entry.kind, entry.message, entry.span)) =
      filings.map placed := by
  have hnumbered := map_filter_numbered (fun _ => true)
    (fun kind message span => (kind, message, span)) filings id
  rwa [List.filter_eq_self.mpr fun _ _ => rfl, List.filter_eq_self.mpr fun _ _ => rfl]
    at hnumbered

end Filing

namespace DiagnosticLog

/-- Files all of some findings, in order. -/
def fileAll (log : DiagnosticLog) : List Filing → DiagnosticLog
  | [] => log
  | filing :: rest => (log.file filing.finding filing.span).fileAll rest

theorem fileAll_append (first second : List Filing) :
    ∀ log : DiagnosticLog,
      log.fileAll (first ++ second) = (log.fileAll first).fileAll second := by
  induction first with
  | nil => exact fun log => rfl
  | cons filing rest ih => exact fun log => ih (log.file filing.finding filing.span)

theorem entries_fileAll (filings : List Filing) :
    ∀ log : DiagnosticLog, (log.fileAll filings).entries =
      log.entries ++ Filing.numbered log.nextId filings := by
  induction filings with
  | nil => exact fun log => (List.append_nil _).symm
  | cons filing rest ih =>
      intro log
      rw [fileAll, ih, file, addAt, add, List.append_assoc]
      rfl

theorem nextId_fileAll (filings : List Filing) :
    ∀ log : DiagnosticLog,
      (log.fileAll filings).nextId = log.nextId + filings.length := by
  induction filings with
  | nil => exact fun log => rfl
  | cons filing rest ih =>
      intro log
      rw [fileAll, ih, List.length_cons, Nat.add_comm rest.length, ← Nat.add_assoc]
      rfl

end DiagnosticLog

/-! ## Declarations whose key was seen before -/

section Repeats

variable {α κ : Type} [DecidableEq κ]

/-- Each of some declarations, with whether its key is among those seen before or
among those of earlier declarations. -/
def flagRepeats (key : α → κ) : List κ → List α → List (α × Bool)
  | _, [] => []
  | seen, decl :: rest =>
      (decl, decide (key decl ∈ seen)) :: flagRepeats key (key decl :: seen) rest

theorem map_fst_flagRepeats (key : α → κ) (decls : List α) :
    ∀ seen : List κ, (flagRepeats key seen decls).map Prod.fst = decls := by
  induction decls with
  | nil => exact fun seen => rfl
  | cons decl rest ih =>
      intro seen
      rw [flagRepeats, List.map_cons, ih]

theorem mem_of_mem_flagRepeats {key : α → κ} {decls : List α} {seen : List κ}
    {flagged : α × Bool} (hmem : flagged ∈ flagRepeats key seen decls) :
    flagged.1 ∈ decls := by
  have hdecl := List.mem_map_of_mem (f := Prod.fst) hmem
  rwa [map_fst_flagRepeats] at hdecl

/-- No key is seen twice exactly if the keys are distinct and new. -/
theorem flagRepeats_all_false_iff (key : α → κ) (decls : List α) :
    ∀ seen : List κ,
      (∀ flagged ∈ flagRepeats key seen decls, flagged.2 = false) ↔
        (decls.map key).Nodup ∧ ∀ decl ∈ decls, key decl ∉ seen := by
  induction decls with
  | nil => simp [flagRepeats]
  | cons decl rest ih =>
      intro seen
      rw [flagRepeats, List.forall_mem_cons, ih, decide_eq_false_iff_not,
        List.map_cons, List.nodup_cons, List.forall_mem_cons]
      simp only [List.mem_cons, not_or, List.mem_map, not_exists, not_and]
      constructor
      · rintro ⟨hnew, hnodup, hrest⟩
        exact ⟨⟨fun other hmem => (hrest other hmem).1, hnodup⟩, hnew,
          fun other hmem => (hrest other hmem).2⟩
      · rintro ⟨⟨hdistinct, hnodup⟩, hnew, hrest⟩
        exact ⟨hnew, hnodup, fun other hmem =>
          ⟨hdistinct other hmem, hrest other hmem⟩⟩

/-- Nothing is repeated and all declarations have a property exactly if no
declaration is flagged and each has the property. -/
theorem forall_flagRepeats_iff (key : α → κ) (decls : List α) (property : α → Prop) :
    (∀ flagged ∈ flagRepeats key [] decls, flagged.2 = false ∧ property flagged.1) ↔
      (decls.map key).Nodup ∧ ∀ decl ∈ decls, property decl := by
  have hflags := flagRepeats_all_false_iff key decls []
  have hfirst := map_fst_flagRepeats key decls []
  constructor
  · intro hall
    refine ⟨(hflags.mp fun flagged hmem => (hall flagged hmem).1).1, ?_⟩
    intro decl hmem
    rw [← hfirst] at hmem
    obtain ⟨flagged, hflagged, rfl⟩ := List.mem_map.mp hmem
    exact (hall flagged hflagged).2
  · rintro ⟨hnodup, hall⟩ flagged hmem
    exact ⟨hflags.mpr ⟨hnodup, fun _ _ => List.not_mem_nil⟩ flagged hmem,
      hall flagged.1 (mem_of_mem_flagRepeats hmem)⟩

variable {σ : Type}

/-- One step of a pass over declarations: it files what there is to say of the
declaration and remembers its key.  Whatever else there is to know of the scope is
said by `fixed` and stays true. -/
structure Enters (enter : σ × DiagnosticLog → α → σ × DiagnosticLog) (key : α → κ)
    (known : σ → List κ) (filings : α → Bool → List Filing) (fixed : σ → Prop) :
    Prop where
  files : ∀ scope log decl, fixed scope →
    (enter (scope, log) decl).2 =
      log.fileAll (filings decl (decide (key decl ∈ known scope)))
  keeps : ∀ scope log decl, fixed scope → fixed (enter (scope, log) decl).1
  remembers : ∀ scope log decl k,
    k ∈ known (enter (scope, log) decl).1 ↔ k = key decl ∨ k ∈ known scope

namespace Enters

variable {enter : σ × DiagnosticLog → α → σ × DiagnosticLog} {key : α → κ}
  {known : σ → List κ} {filings : α → Bool → List Filing} {fixed : σ → Prop}

theorem foldl_keeps (henters : Enters enter key known filings fixed) (decls : List α) :
    ∀ state : σ × DiagnosticLog, fixed state.1 →
      fixed (decls.foldl enter state).1 := by
  induction decls with
  | nil => exact fun state hfixed => hfixed
  | cons decl rest ih =>
      exact fun state hfixed => ih _ (henters.keeps state.1 state.2 decl hfixed)

theorem mem_known_foldl (henters : Enters enter key known filings fixed)
    (decls : List α) (k : κ) :
    ∀ state : σ × DiagnosticLog, k ∈ known (decls.foldl enter state).1 ↔
      k ∈ decls.map key ∨ k ∈ known state.1 := by
  induction decls with
  | nil => simp
  | cons decl rest ih =>
      intro state
      rw [List.foldl_cons, ih, henters.remembers state.1 state.2, List.map_cons,
        List.mem_cons, or_left_comm, or_assoc]

/-- A whole pass files what there is to say of each declaration. -/
theorem foldl_files (henters : Enters enter key known filings fixed)
    (decls : List α) :
    ∀ (seen : List κ) (state : σ × DiagnosticLog), fixed state.1 →
      (∀ k, k ∈ known state.1 ↔ k ∈ seen) →
      (decls.foldl enter state).2 =
        state.2.fileAll ((flagRepeats key seen decls).flatMap fun flagged =>
          filings flagged.1 flagged.2) := by
  induction decls with
  | nil => exact fun seen state hfixed hseen => rfl
  | cons decl rest ih =>
      intro seen state hfixed hseen
      have hnext : ∀ k, k ∈ known (enter state decl).1 ↔ k ∈ key decl :: seen := by
        intro k
        rw [henters.remembers state.1 state.2, hseen, List.mem_cons]
      rw [List.foldl_cons,
        ih (key decl :: seen) _ (henters.keeps state.1 state.2 decl hfixed) hnext,
        henters.files state.1 state.2 decl hfixed, flagRepeats, List.flatMap_cons,
        DiagnosticLog.fileAll_append]
      simp only [hseen]

end Enters

end Repeats

/-! ## The passes -/

/-- A key that is known already adds nothing. -/
theorem mem_iff_of_mem {κ : Type} {key k : κ} {known : List κ} (hkey : key ∈ known) :
    k ∈ known ↔ k = key ∨ k ∈ known := by
  constructor
  · exact .inr
  · rintro (rfl | hmem)
    · exact hkey
    · exact hmem

/-- What is filed about a function whose signature was or was not seen before. -/
def FunctionDecl.signatureFilings (function : FunctionDecl) (repeated : Bool) :
    List Filing :=
  if repeated then
    [⟨.duplicateFunction (Signature.ofFunction function), function.span⟩]
  else []

/-- What is filed about the initial value of a variable. -/
def VariableDecl.valueFilings (decl : VariableDecl) : List Filing :=
  match decl.init with
  | some value =>
      if suits decl.type value.text then []
      else [⟨.typeMismatch decl.type value.text, decl.span⟩]
  | none => []

/-- What is filed about a global variable whose name was or was not seen
before. -/
def VariableDecl.globalFilings (decl : VariableDecl) (repeated : Bool) :
    List Filing :=
  (if repeated then [⟨.duplicateGlobal decl.name, decl.span⟩] else []) ++
    decl.valueFilings

/-- What is filed about a local of the given function whose name was or was not
seen before. -/
def VariableDecl.localFilings (function : FunctionDecl) (decl : VariableDecl)
    (repeated : Bool) : List Filing :=
  (if decl.name ∈ function.parameters.map Parameter.name then
      [⟨.shadowedParameter decl.name function.name, decl.span⟩]
    else []) ++
    if repeated then [⟨.duplicateLocal decl.name function.name, decl.span⟩] else []

/-- What is filed about the declarations at the top level. -/
def Program.declarationFilings (program : Program) : List Filing :=
  ((flagRepeats Signature.ofFunction [] program.functions).flatMap fun flagged =>
      flagged.1.signatureFilings flagged.2) ++
    (flagRepeats VariableDecl.name [] program.globals).flatMap fun flagged =>
      flagged.1.globalFilings flagged.2

/-- What is filed about the locals of a function. -/
def FunctionDecl.bodyFilings (function : FunctionDecl) : List Filing :=
  (flagRepeats VariableDecl.name [] function.locals).flatMap fun flagged =>
    flagged.1.localFilings function flagged.2

theorem enterFunction_enters (names : List String) :
    Enters enterFunction Signature.ofFunction ProgramScope.signatures
      FunctionDecl.signatureFilings fun scope => scope.variableNames = names where
  files scope log function _ := by
    by_cases htaken : Signature.ofFunction function ∈ scope.signatures
    · simp [enterFunction, ProgramScope.addFunction?, htaken,
        FunctionDecl.signatureFilings, DiagnosticLog.fileAll]
    · simp [enterFunction, ProgramScope.addFunction?, htaken,
        FunctionDecl.signatureFilings, DiagnosticLog.fileAll]
  keeps scope log function hnames := by
    by_cases htaken : Signature.ofFunction function ∈ scope.signatures
    · simpa only [enterFunction, ProgramScope.addFunction?, htaken, if_true]
    · simpa only [enterFunction, ProgramScope.addFunction?, htaken, if_false]
  remembers scope log function signature := by
    by_cases htaken : Signature.ofFunction function ∈ scope.signatures
    · simp only [enterFunction, ProgramScope.addFunction?, htaken, if_true]
      exact mem_iff_of_mem htaken
    · simp only [enterFunction, ProgramScope.addFunction?, htaken, if_false,
        List.mem_append, List.mem_singleton]
      exact or_comm

/-- The name is entered first, and the value is checked in any case. -/
theorem enterGlobal_eq (scope : ProgramScope) (log : DiagnosticLog)
    (decl : VariableDecl) :
    enterGlobal (scope, log) decl =
      ((scope.addVariable? decl.name).getD scope,
        (match scope.addVariable? decl.name with
          | some _ => log
          | none => log.file (.duplicateGlobal decl.name) decl.span).fileAll
          decl.valueFilings) := by
  have hcheck : ∀ (log : DiagnosticLog) (value : Expr),
      log.checkValue decl.type value.text decl.span =
        log.fileAll (if suits decl.type value.text then []
          else [⟨.typeMismatch decl.type value.text, decl.span⟩]) := by
    intro log value
    rw [DiagnosticLog.checkValue]
    split <;> rfl
  rw [enterGlobal, VariableDecl.valueFilings]
  cases decl.init with
  | none => cases scope.addVariable? decl.name <;> rfl
  | some value =>
      simp only [hcheck]
      cases scope.addVariable? decl.name <;> rfl

theorem enterGlobal_enters (signatures : List Signature) :
    Enters enterGlobal VariableDecl.name ProgramScope.variableNames
      VariableDecl.globalFilings fun scope => scope.signatures = signatures where
  files scope log decl _ := by
    by_cases htaken : decl.name ∈ scope.variableNames
    · simp [enterGlobal_eq, ProgramScope.addVariable?, htaken,
        VariableDecl.globalFilings, DiagnosticLog.fileAll]
    · simp [enterGlobal_eq, ProgramScope.addVariable?, htaken,
        VariableDecl.globalFilings]
  keeps scope log decl hsignatures := by
    by_cases htaken : decl.name ∈ scope.variableNames
    · simpa only [enterGlobal_eq, ProgramScope.addVariable?, htaken, if_true]
    · simpa only [enterGlobal_eq, ProgramScope.addVariable?, htaken, if_false]
  remembers scope log decl name := by
    by_cases htaken : decl.name ∈ scope.variableNames
    · simp only [enterGlobal_eq, ProgramScope.addVariable?, htaken, if_true,
        Option.getD_none]
      exact mem_iff_of_mem htaken
    · simp only [enterGlobal_eq, ProgramScope.addVariable?, htaken, if_false,
        Option.getD_some, List.mem_append, List.mem_singleton]
      exact or_comm

theorem enterLocal_enters (function : FunctionDecl) :
    Enters enterLocal VariableDecl.name BodyScope.locals
      (VariableDecl.localFilings function) fun scope =>
        scope.function = function.name ∧
          ∀ name, name ∈ scope.parameters ↔
            name ∈ function.parameters.map Parameter.name where
  files scope log decl hscope := by
    obtain ⟨hname, hparameters⟩ := hscope
    simp only [enterLocal, BodyScope.knowsParameter, hparameters, hname,
      VariableDecl.localFilings, decide_eq_true_eq, BodyScope.addLocal?]
    by_cases htaken : decl.name ∈ scope.locals
    · by_cases hshadows : decl.name ∈ function.parameters.map Parameter.name
      · simp [htaken, hshadows, DiagnosticLog.fileAll]
      · simp [htaken, hshadows, DiagnosticLog.fileAll]
    · by_cases hshadows : decl.name ∈ function.parameters.map Parameter.name
      · simp [htaken, hshadows, DiagnosticLog.fileAll]
      · simp [htaken, hshadows, DiagnosticLog.fileAll]
  keeps scope log decl hscope := by
    by_cases htaken : decl.name ∈ scope.locals
    · simpa only [enterLocal, BodyScope.addLocal?, htaken, if_true]
    · simpa only [enterLocal, BodyScope.addLocal?, htaken, if_false]
  remembers scope log decl name := by
    by_cases htaken : decl.name ∈ scope.locals
    · simp only [enterLocal, BodyScope.addLocal?, htaken, if_true]
      exact mem_iff_of_mem htaken
    · simp only [enterLocal, BodyScope.addLocal?, htaken, if_false, List.mem_append,
        List.mem_singleton]
      exact or_comm

/-! ## Whole passes -/

theorem enterDeclarations_files (program : Program) (log : DiagnosticLog) :
    (enterDeclarations program ({}, log)).2 =
      log.fileAll program.declarationFilings := by
  have hnames := (enterFunction_enters []).foldl_keeps program.functions ({}, log) rfl
  have hfunctions := (enterFunction_enters []).foldl_files program.functions []
    ({}, log) rfl (fun _ => Iff.rfl)
  have hglobals := (enterGlobal_enters _).foldl_files program.globals []
    (program.functions.foldl enterFunction ({}, log)) rfl (fun _ => by rw [hnames])
  rw [enterDeclarations, hglobals, hfunctions, Program.declarationFilings,
    DiagnosticLog.fileAll_append]

/-- After the declarations, the known functions are those of the program. -/
theorem knowsFunction_enterDeclarations (program : Program) (log : DiagnosticLog)
    (name : String) :
    (enterDeclarations program ({}, log)).1.knowsFunction name = true ↔
      ∃ function ∈ program.functions, function.name = name := by
  have hsignatures := (enterGlobal_enters _).foldl_keeps program.globals
    (program.functions.foldl enterFunction ({}, log)) rfl
  have hknown := fun signature =>
    (enterFunction_enters []).mem_known_foldl program.functions signature ({}, log)
  rw [enterDeclarations, ProgramScope.knowsFunction, hsignatures, List.any_eq_true]
  constructor
  · rintro ⟨signature, hmem, hname⟩
    rcases (hknown signature).mp hmem with hmem | hmem
    · obtain ⟨function, hfunction, rfl⟩ := List.mem_map.mp hmem
      exact ⟨function, hfunction, of_decide_eq_true hname⟩
    · cases hmem
  · rintro ⟨function, hmem, rfl⟩
    exact ⟨Signature.ofFunction function,
      (hknown _).mpr (.inl (List.mem_map_of_mem hmem)), decide_eq_true rfl⟩

theorem enterParameter_adds (scope : BodyScope) (param : Parameter) :
    (enterParameter scope param).function = scope.function ∧
      (enterParameter scope param).locals = scope.locals ∧
      ∀ name, name ∈ (enterParameter scope param).parameters ↔
        name = param.name ∨ name ∈ scope.parameters := by
  by_cases htaken : param.name ∈ scope.parameters
  · simp only [enterParameter, BodyScope.addParameter?, htaken, if_true,
      Option.getD_none, true_and]
    exact fun name => mem_iff_of_mem htaken
  · simp only [enterParameter, BodyScope.addParameter?, htaken, if_false,
      Option.getD_some, true_and, List.mem_append, List.mem_singleton]
    exact fun name => or_comm

/-- The scope that a body starts with holds the names of the parameters and
nothing else. -/
theorem foldl_enterParameter (params : List Parameter) :
    ∀ scope : BodyScope,
      (params.foldl enterParameter scope).function = scope.function ∧
      (params.foldl enterParameter scope).locals = scope.locals ∧
      ∀ name, name ∈ (params.foldl enterParameter scope).parameters ↔
        name ∈ params.map Parameter.name ∨ name ∈ scope.parameters := by
  induction params with
  | nil => exact fun scope => ⟨rfl, rfl, by simp⟩
  | cons param rest ih =>
      intro scope
      obtain ⟨hfunction, hlocals, hparameters⟩ := ih (enterParameter scope param)
      obtain ⟨hsameFunction, hsameLocals, hadded⟩ := enterParameter_adds scope param
      refine ⟨hfunction.trans hsameFunction, hlocals.trans hsameLocals, fun name => ?_⟩
      rw [List.foldl_cons, hparameters, hadded, List.map_cons, List.mem_cons,
        or_left_comm, or_assoc]

theorem checkBody_files (function : FunctionDecl) (log : DiagnosticLog) :
    (checkBody function log).2 = log.fileAll function.bodyFilings := by
  obtain ⟨hfunction, hlocals, hparameters⟩ :=
    foldl_enterParameter function.parameters { function := function.name }
  refine (enterLocal_enters function).foldl_files function.locals [] (_, log)
    ⟨hfunction, fun name => ?_⟩ (fun name => by rw [hlocals])
  rw [hparameters]
  simp

end DeclCheck
