import DeclCheck.Proofs.Analysis.ItemOrder
import Mathlib.Data.List.FinRange

/-!
# Later occurrences are blamed

A pass over declarations only remembers a set of keys.  Still, what it blames can be
told from the places of the declarations: a declaration is blamed exactly if an earlier
one has the same key, no matter whether that one was blamed itself.  The declarations
that are not blamed are those whose keys a scope holds in the end.
-/

namespace DeclCheck

/-! ## Occurrences by their place -/

section Occurrences

variable {α κ σ : Type}

/-- Some earlier declaration has the same key. -/
def HasEarlier (key : α → κ) (decls : List α) (place : Fin decls.length) : Prop :=
  ∃ earlier < place, key (decls.get earlier) = key (decls.get place)

instance [DecidableEq κ] (key : α → κ) (decls : List α) (place : Fin decls.length) :
    Decidable (HasEarlier key decls place) :=
  inferInstanceAs (Decidable (∃ earlier < place, _))

theorem hasEarlier_succ (key : α → κ) (decl : α) (rest : List α) (place : Fin rest.length) :
    HasEarlier key (decl :: rest) place.succ ↔
      key (rest.get place) = key decl ∨ HasEarlier key rest place := by
  refine Fin.exists_fin_succ.trans (or_congr ?_ (exists_congr fun earlier => ?_))
  · rw [and_iff_right (Fin.succ_pos place), eq_comm]
    rfl
  · rw [Fin.succ_lt_succ_iff]
    rfl

variable [DecidableEq κ]

/-- The declarations with the key of an earlier one, in order. -/
def laterOccurrences (key : α → κ) (decls : List α) : List α :=
  ((List.finRange decls.length).filter (HasEarlier key decls ·)).map decls.get

/-- What is remembered of the earlier declarations is whether one has the same key. -/
theorem flagRepeats_eq_map (key : α → κ) (decls : List α) :
    ∀ seen : List κ, flagRepeats key seen decls =
      (List.finRange decls.length).map fun place =>
        (decls.get place,
          decide (key (decls.get place) ∈ seen ∨ HasEarlier key decls place)) := by
  induction decls with
  | nil => exact fun seen => rfl
  | cons decl rest ih =>
      intro seen
      have hfirst : ¬HasEarlier key (decl :: rest) 0 :=
        fun ⟨earlier, hlt, _⟩ => absurd hlt (Fin.not_lt_zero earlier)
      have hplaces : List.finRange (decl :: rest).length =
          0 :: (List.finRange rest.length).map Fin.succ := List.finRange_succ
      rw [flagRepeats, ih, hplaces, List.map_cons, List.map_map]
      simp only [hfirst, or_false, Function.comp_def, hasEarlier_succ, List.mem_cons,
        List.get_cons_zero, List.get_cons_succ', or_left_comm, or_assoc]

theorem map_fst_filter_flagRepeats (key : α → κ) (decls : List α) :
    ((flagRepeats key [] decls).filter Prod.snd).map Prod.fst = laterOccurrences key decls := by
  rw [flagRepeats_eq_map, List.filter_map, List.map_map, laterOccurrences]
  simp only [List.not_mem_nil, false_or]
  rfl

/-- If a pass adds to the known keys exactly those that are new, then a declaration is
either flagged or adds a key. -/
theorem length_known_foldl {enter : σ × DiagnosticLog → α → σ × DiagnosticLog}
    {key : α → κ} {known : σ → List κ} {filings : α → Bool → List Filing} {fixed : σ → Prop}
    (henters : Enters enter key known filings fixed)
    (hgrows : ∀ state decl, (known (enter state decl).1).length =
      (known state.1).length + if key decl ∈ known state.1 then 0 else 1)
    (decls : List α) :
    ∀ (seen : List κ) (state : σ × DiagnosticLog), (∀ k, k ∈ known state.1 ↔ k ∈ seen) →
      (known (decls.foldl enter state).1).length +
          ((flagRepeats key seen decls).filter Prod.snd).length =
        (known state.1).length + decls.length := by
  induction decls with
  | nil => exact fun seen state hseen => rfl
  | cons decl rest ih =>
      intro seen state hseen
      have hnext : ∀ k, k ∈ known (enter state decl).1 ↔ k ∈ key decl :: seen := by
        intro k
        rw [henters.remembers state.1 state.2, hseen, List.mem_cons]
      have hrest := ih (key decl :: seen) (enter state decl) hnext
      simp only [hgrows, hseen] at hrest
      rw [List.foldl_cons, flagRepeats, List.filter_cons, List.length_cons]
      by_cases htaken : key decl ∈ seen
      · simp only [htaken, if_true, decide_true, List.length_cons] at hrest ⊢
        omega
      · simp only [htaken, if_false, decide_false, Bool.false_eq_true] at hrest ⊢
        omega

end Occurrences

/-! ## What is filed about later occurrences -/

/-- What is wrong with the names of the locals of a function: for each local in turn that
it shadows a parameter, then that an earlier local has its name. -/
def FunctionDecl.clashes (function : FunctionDecl) : List Filing :=
  (List.finRange function.locals.length).flatMap fun place =>
    let decl := function.locals.get place
    (if ∃ param ∈ function.parameters, param.name = decl.name then
        [⟨.shadowedParameter decl.name function.name, decl.span⟩]
      else []) ++
      if HasEarlier VariableDecl.name function.locals place then
        [⟨.duplicateLocal decl.name function.name, decl.span⟩]
      else []

theorem bodyFilings_eq_clashes : FunctionDecl.bodyFilings = FunctionDecl.clashes := by
  funext function
  rw [FunctionDecl.bodyFilings, flagRepeats_eq_map, List.flatMap_map, FunctionDecl.clashes]
  simp only [VariableDecl.localFilings, List.mem_map, List.not_mem_nil, false_or,
    decide_eq_true_eq]

/-- If only repeated declarations are filed, then what is filed can be told from the later
occurrences. -/
theorem filter_laterOccurrences {α κ : Type} [DecidableEq κ] (key : α → κ)
    {filings : α → Bool → List Filing} {select : Filing → Bool} (blame : α → Filing)
    (hblame : ∀ decl repeated, (filings decl repeated).filter select =
      if repeated then [blame decl] else []) (decls : List α) :
    ((flagRepeats key [] decls).flatMap fun flagged =>
        filings flagged.1 flagged.2).filter select =
      (laterOccurrences key decls).map blame := by
  have hview : ∀ decl repeated, ((filings decl repeated).filter select).map id =
      if repeated then [blame decl] else [] := by
    intro decl repeated
    rw [List.map_id, hblame]
  have hflagged := map_filter_flagRepeats key blame hview [] decls
  rw [List.map_id] at hflagged
  rw [hflagged, ← map_fst_filter_flagRepeats, List.map_map]
  rfl

theorem filter_signatureFilings_eq_nil {kinds : List DiagnosticKind}
    (hkinds : .duplicateFunction ∉ kinds) (functions : List FunctionDecl) :
    ((flagRepeats Signature.ofFunction [] functions).flatMap fun flagged =>
      flagged.1.signatureFilings flagged.2).filter (Filing.isOf kinds) = [] := by
  have hfilings : ∀ (function : FunctionDecl) (repeated : Bool),
      (function.signatureFilings repeated).filter (Filing.isOf kinds) = [] := by
    intro function repeated
    cases repeated <;> simp [FunctionDecl.signatureFilings, Filing.isOf, Finding.kind, hkinds]
  rw [filter_flagRepeats hfilings]
  exact List.flatMap_eq_nil_iff.mpr fun _ _ => rfl

theorem filter_valueFilings_eq_nil {kinds : List DiagnosticKind}
    (hkinds : .typeMismatch ∉ kinds) (decl : VariableDecl) :
    decl.valueFilings.filter (Filing.isOf kinds) = [] := by
  have hfilings := valueFilings_isOf (List.mem_singleton_self DiagnosticKind.typeMismatch) decl
  exact filter_isOf_eq_nil (by simpa using hkinds) hfilings

theorem filter_globalFilings_eq_nil {kinds : List DiagnosticKind}
    (hrepeat : .duplicateGlobal ∉ kinds) (hvalue : .typeMismatch ∉ kinds)
    (decls : List VariableDecl) :
    ((flagRepeats VariableDecl.name [] decls).flatMap fun flagged =>
      flagged.1.globalFilings flagged.2).filter (Filing.isOf kinds) = [] := by
  have hfilings : ∀ (decl : VariableDecl) (repeated : Bool),
      (decl.globalFilings repeated).filter (Filing.isOf kinds) = [] := by
    intro decl repeated
    rw [VariableDecl.globalFilings, List.filter_append, filter_valueFilings_eq_nil hvalue]
    cases repeated <;> simp [Filing.isOf, Finding.kind, hrepeat]
  rw [filter_flagRepeats hfilings]
  exact List.flatMap_eq_nil_iff.mpr fun _ _ => rfl

theorem filter_duplicateGlobal_filings (program : Program) (reach : CallReach) :
    (program.filings reach).filter (Filing.isOf [.duplicateGlobal]) =
      (laterOccurrences VariableDecl.name program.globals).map fun decl =>
        ⟨.duplicateGlobal decl.name, decl.span⟩ := by
  have hglobals : ∀ (decl : VariableDecl) (repeated : Bool),
      (decl.globalFilings repeated).filter (Filing.isOf [.duplicateGlobal]) =
        if repeated then [⟨.duplicateGlobal decl.name, decl.span⟩] else [] := by
    intro decl repeated
    rw [VariableDecl.globalFilings, List.filter_append,
      filter_valueFilings_eq_nil (by decide), List.append_nil]
    cases repeated <;> rfl
  rw [Program.filings, Program.declarationFilings, List.filter_append, List.filter_append,
    filter_isOf_eq_nil (by decide) (itemFilings_isOf program reach), List.append_nil,
    filter_signatureFilings_eq_nil (by decide), List.nil_append]
  exact filter_laterOccurrences VariableDecl.name _ hglobals program.globals

theorem filter_duplicateFunction_filings (program : Program) (reach : CallReach) :
    (program.filings reach).filter (Filing.isOf [.duplicateFunction]) =
      (laterOccurrences Signature.ofFunction program.functions).map fun function =>
        ⟨.duplicateFunction (Signature.ofFunction function), function.span⟩ := by
  have hsignatures : ∀ (function : FunctionDecl) (repeated : Bool),
      (function.signatureFilings repeated).filter (Filing.isOf [.duplicateFunction]) =
        if repeated then
          [⟨.duplicateFunction (Signature.ofFunction function), function.span⟩] else [] := by
    intro function repeated
    cases repeated <;> rfl
  rw [Program.filings, Program.declarationFilings, List.filter_append, List.filter_append,
    filter_isOf_eq_nil (by decide) (itemFilings_isOf program reach), List.append_nil,
    filter_globalFilings_eq_nil (by decide) (by decide), List.append_nil]
  exact filter_laterOccurrences Signature.ofFunction _ hsignatures program.functions

/-- The complaints about the names of locals. -/
def localKinds : List DiagnosticKind :=
  [.shadowedParameter, .duplicateLocal]

theorem filter_localKinds_item (reach : CallReach) (defined : String → Bool) (item : Item) :
    (item.filings reach defined).filter (Filing.isOf localKinds) =
      item.function?.toList.flatMap FunctionDecl.clashes := by
  have hbodies : ∀ filing ∈ item.function?.toList.flatMap FunctionDecl.bodyFilings,
      filing.isOf localKinds = true := by
    intro filing hmem
    obtain ⟨function, _, hfiling⟩ := List.mem_flatMap.mp hmem
    exact bodyFilings_isOf (by decide) (by decide) function filing hfiling
  have hcalls : ∀ filing ∈ (examinedNodes reach item.sites).filterMap (callFiling? defined),
      filing.isOf [.undefinedCall] = true := by
    intro filing hmem
    obtain ⟨node, _, hfiling⟩ := List.mem_filterMap.mp hmem
    obtain ⟨name, _, rfl⟩ := Option.map_eq_some_iff.mp hfiling
    rfl
  rw [Item.filings, List.filter_append, List.filter_eq_self.mpr hbodies,
    filter_isOf_eq_nil (by decide) hcalls, List.append_nil, bodyFilings_eq_clashes]

theorem filter_localKinds_filings (program : Program) (reach : CallReach) :
    (program.filings reach).filter (Filing.isOf localKinds) =
      program.functions.flatMap FunctionDecl.clashes := by
  rw [Program.filings, Program.declarationFilings, List.filter_append, List.filter_append,
    filter_signatureFilings_eq_nil (by decide),
    filter_globalFilings_eq_nil (by decide) (by decide), List.append_nil, List.nil_append,
    List.filter_flatMap]
  simp only [filter_localKinds_item]
  rw [Program.functions, List.filterMap_eq_flatMap_toList, List.flatMap_assoc]

/-! ## What is recorded, and what the scope holds -/

theorem placedFindings_analyze (reach : CallReach) (program : Program) (id : Nat)
    (kinds : List DiagnosticKind) :
    (analyze { callReach := reach, stopAtUndefinedCall := false } program
        { entries := [], nextId := id }).2.placedFindings kinds =
      ((program.filings reach).filter (Filing.isOf kinds)).map Filing.placed := by
  rw [DiagnosticLog.placedFindings, entries_analyze_of_not_stop, List.nil_append]
  exact Filing.map_filter_numbered (· ∈ kinds) (fun kind message span => (kind, message, span))
    _ id

theorem count_eq_length_placedFindings (log : DiagnosticLog) (kind : DiagnosticKind) :
    log.count kind = (log.placedFindings [kind]).length := by
  rw [DiagnosticLog.count, DiagnosticLog.placedFindings, List.length_map,
    List.countP_eq_length_filter]
  simp only [List.mem_singleton]

theorem length_variableNames (program : Program) (log : DiagnosticLog) :
    (enterDeclarations program ({}, log)).1.variableNames.length +
        (laterOccurrences VariableDecl.name program.globals).length =
      program.globals.length := by
  have hnames := (enterFunction_enters []).foldl_keeps program.functions ({}, log) rfl
  have hgrows : ∀ (state : ProgramScope × DiagnosticLog) (decl : VariableDecl),
      (enterGlobal state decl).1.variableNames.length =
        state.1.variableNames.length + if decl.name ∈ state.1.variableNames then 0 else 1 := by
    intro state decl
    rw [enterGlobal_eq state.1 state.2]
    by_cases htaken : decl.name ∈ state.1.variableNames
    · simp [ProgramScope.addVariable?, htaken]
    · simp [ProgramScope.addVariable?, htaken]
  have hlength := length_known_foldl (enterGlobal_enters []) hgrows program.globals []
    (program.functions.foldl enterFunction ({}, log)) (fun _ => by rw [hnames])
  rw [hnames, List.length_nil, Nat.zero_add] at hlength
  rw [← map_fst_filter_flagRepeats, List.length_map]
  exact hlength

theorem length_signatures (program : Program) (log : DiagnosticLog) :
    (enterDeclarations program ({}, log)).1.signatures.length +
        (laterOccurrences Signature.ofFunction program.functions).length =
      program.functions.length := by
  have hkept : (enterDeclarations program ({}, log)).1.signatures =
      (program.functions.foldl enterFunction ({}, log)).1.signatures :=
    (enterGlobal_enters _).foldl_keeps program.globals _ rfl
  have hgrows : ∀ (state : ProgramScope × DiagnosticLog) (function : FunctionDecl),
      (enterFunction state function).1.signatures.length = state.1.signatures.length +
        if Signature.ofFunction function ∈ state.1.signatures then 0 else 1 := by
    intro state function
    by_cases htaken : Signature.ofFunction function ∈ state.1.signatures
    · simp [enterFunction, ProgramScope.addFunction?, htaken]
    · simp [enterFunction, ProgramScope.addFunction?, htaken]
  have hlength := length_known_foldl (enterFunction_enters []) hgrows program.functions []
    ({}, log) (fun _ => Iff.rfl)
  rw [hkept, ← map_fst_filter_flagRepeats, List.length_map, hlength]
  exact Nat.zero_add _

/-- An analysis that does not stop complains of equal declarations exactly where an earlier
one is the same, and of locals where they have the name of a parameter or of an earlier
local.  What it does not complain of at the top level is what its scope holds. -/
theorem analyze_blames_later (reach : CallReach) (program : Program) (id : Nat) :
    let run := analyze { callReach := reach, stopAtUndefinedCall := false } program
      { entries := [], nextId := id }
    run.2.placedFindings [.duplicateGlobal] =
        (laterOccurrences VariableDecl.name program.globals).map (fun decl =>
          (.duplicateGlobal, (Finding.duplicateGlobal decl.name).message, some decl.span)) ∧
      run.2.placedFindings [.duplicateFunction] =
        (laterOccurrences Signature.ofFunction program.functions).map (fun function =>
          (.duplicateFunction,
            (Finding.duplicateFunction (Signature.ofFunction function)).message,
            some function.span)) ∧
      run.2.placedFindings [.shadowedParameter, .duplicateLocal] =
        (program.functions.flatMap FunctionDecl.clashes).map Filing.placed ∧
      run.1.globals.variableNames.length + run.2.count .duplicateGlobal =
        program.globals.length ∧
      run.1.globals.signatures.length + run.2.count .duplicateFunction =
        program.functions.length := by
  intro run
  have hplaced := placedFindings_analyze reach program id
  have hglobals := hplaced [.duplicateGlobal]
  have hfunctions := hplaced [.duplicateFunction]
  rw [filter_duplicateGlobal_filings, List.map_map] at hglobals
  rw [filter_duplicateFunction_filings, List.map_map] at hfunctions
  refine ⟨hglobals, hfunctions, ?_, ?_, ?_⟩
  · rw [hplaced, ← localKinds, filter_localKinds_filings]
  · rw [count_eq_length_placedFindings, hglobals, List.length_map]
    exact length_variableNames program _
  · rw [count_eq_length_placedFindings, hfunctions, List.length_map]
    exact length_signatures program _

/-- A local that shadows a parameter is remembered like any other. -/
example :
    let program := (parse "int f(int n)\x7bint n;if(n)\x7bint n;\x7dfloat n;\x7d".toList).program
    let run := analyze { callReach := .deep, stopAtUndefinedCall := false } program {}
    run.2.entries.map Diagnostic.kind =
      [.shadowedParameter, .shadowedParameter, .duplicateLocal] := by
  decide +kernel

end DeclCheck
