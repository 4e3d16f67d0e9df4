import DeclCheck.Proofs.Analysis.Recorded
import Mathlib.Data.List.Perm.Basic
import Mathlib.Data.List.Nodup

/-!
# The order of the items

All declarations of a program are entered before anything else is looked at, and a scope
is a set of names.  The order of the items therefore makes no difference to the scope of
the program, nor to what is found inside a function, in a value or at a call.  Where
several items declare the same, all of them but the first are blamed: which ones these
are depends on the order, how many there are for each name does not.
-/

namespace DeclCheck

/-! ## Repeated keys -/

section Repeats

variable {α κ σ : Type} [DecidableEq κ]

/-- The keys of the declarations whose key was seen before, as often as there are such
declarations. -/
def repeatedKeys (key : α → κ) (seen : List κ) (decls : List α) : List κ :=
  ((flagRepeats key seen decls).filter Prod.snd).map fun flagged => key flagged.1

/-- A key is repeated once less than it is declared, and not less if it was seen before. -/
theorem count_repeatedKeys (key : α → κ) (k : κ) (decls : List α) :
    ∀ seen : List κ, (repeatedKeys key seen decls).count k =
      (decls.map key).count k - if k ∈ seen then 0 else 1 := by
  induction decls with
  | nil => simp [repeatedKeys, flagRepeats]
  | cons decl rest ih =>
      intro seen
      have hrest := ih (key decl :: seen)
      rw [repeatedKeys] at hrest
      by_cases hk : k = key decl
      · subst hk
        by_cases hseen : key decl ∈ seen
        · simp [repeatedKeys, flagRepeats, hseen, hrest]
        · simp [repeatedKeys, flagRepeats, hseen, hrest]
      · have hne : key decl ≠ k := fun heq => hk heq.symm
        by_cases hseen : key decl ∈ seen
        · simp [repeatedKeys, flagRepeats, hseen, hrest, hk, hne]
        · simp [repeatedKeys, flagRepeats, hseen, hrest, hk, hne]

theorem repeatedKeys_perm (key : α → κ) {decls others : List α}
    (hperm : decls.Perm others) :
    (repeatedKeys key [] decls).Perm (repeatedKeys key [] others) := by
  rw [List.perm_iff_count]
  intro k
  rw [count_repeatedKeys, count_repeatedKeys, (hperm.map key).count_eq]

variable {filings : α → Bool → List Filing} {select : Filing → Bool}

/-- If no key is entered twice, the same declarations in another order leave the same keys
behind. -/
theorem Enters.known_foldl_perm {enter : σ × DiagnosticLog → α → σ × DiagnosticLog}
    {key : α → κ} {known : σ → List κ} {fixed : σ → Prop}
    (henters : Enters enter key known filings fixed)
    (hnodup : ∀ state decl, (known state.1).Nodup → (known (enter state decl).1).Nodup)
    {decls others : List α} (hperm : decls.Perm others) {start other : σ × DiagnosticLog}
    (hstart : known start.1 = []) (hother : known other.1 = []) :
    (known (decls.foldl enter start).1).Perm (known (others.foldl enter other).1) := by
  have honce : ∀ (decls : List α) (state : σ × DiagnosticLog), known state.1 = [] →
      (known (decls.foldl enter state).1).Nodup := by
    intro decls state hnone
    refine List.foldlRecOn (motive := fun state => (known state.1).Nodup) decls enter
      ?_ fun state hstate decl _ => hnodup state decl hstate
    rw [hnone]
    exact List.nodup_nil
  rw [List.perm_ext_iff_of_nodup (honce decls start hstart) (honce others other hother)]
  intro k
  rw [henters.mem_known_foldl, henters.mem_known_foldl, hstart, hother,
    (hperm.map key).mem_iff]

/-- If only repeated declarations are filed, then what is filed can be told from those
that are flagged. -/
theorem map_filter_flagRepeats {β : Type} (key : α → κ) {view : Filing → β} (blame : α → β)
    (hblame : ∀ decl repeated, ((filings decl repeated).filter select).map view =
      if repeated then [blame decl] else [])
    (seen : List κ) (decls : List α) :
    (((flagRepeats key seen decls).flatMap fun flagged =>
        filings flagged.1 flagged.2).filter select).map view =
      ((flagRepeats key seen decls).filter Prod.snd).map fun flagged => blame flagged.1 := by
  rw [List.filter_flatMap, List.map_flatMap]
  simp only [hblame]
  generalize flagRepeats key seen decls = flags
  induction flags with
  | nil => rfl
  | cons flagged rest ih =>
      rw [List.flatMap_cons, ih]
      cases hrepeated : flagged.2 with
      | true => simp [hrepeated]
      | false => simp [hrepeated]

/-- If it makes no difference to what is filed whether a declaration is repeated, then
only the declarations count. -/
theorem filter_flagRepeats {key : α → κ} {alone : α → List Filing}
    (halone : ∀ decl repeated, (filings decl repeated).filter select = alone decl)
    (seen : List κ) (decls : List α) :
    ((flagRepeats key seen decls).flatMap fun flagged =>
        filings flagged.1 flagged.2).filter select = decls.flatMap alone := by
  calc
    _ = (flagRepeats key seen decls).flatMap (fun flagged => alone flagged.1) := by
      simp only [List.filter_flatMap, halone]
    _ = ((flagRepeats key seen decls).map Prod.fst).flatMap alone := by
      rw [List.flatMap_map]
    _ = decls.flatMap alone := by rw [map_fst_flagRepeats]

end Repeats

/-! ## Kinds of findings -/

/-- The complaints about one of several equal declarations at the top level. -/
def repeatedKinds : List DiagnosticKind :=
  [.duplicateGlobal, .duplicateFunction]

/-- The complaints about what stands inside one item. -/
def itemKinds : List DiagnosticKind :=
  [.shadowedParameter, .duplicateLocal, .typeMismatch, .undefinedCall]

namespace Filing

/-- Whether a filing is of one of some kinds. -/
def isOf (kinds : List DiagnosticKind) (filing : Filing) : Bool :=
  filing.finding.kind ∈ kinds

end Filing

/-- Filings of some kinds are not of others. -/
theorem filter_isOf_eq_nil {kinds others : List DiagnosticKind} {filings : List Filing}
    (hdisjoint : ∀ kind ∈ others, kind ∉ kinds)
    (hfilings : ∀ filing ∈ filings, filing.isOf others = true) :
    filings.filter (Filing.isOf kinds) = [] := by
  refine List.filter_eq_nil_iff.mpr fun filing hmem => ?_
  have hkind := hdisjoint _ (of_decide_eq_true (hfilings filing hmem))
  rwa [Filing.isOf, decide_eq_true_eq]

/-- A complaint about one item is not about a repeated declaration. -/
theorem filter_repeatedKinds_eq_nil {filings : List Filing}
    (hfilings : ∀ filing ∈ filings, filing.isOf itemKinds = true) :
    filings.filter (Filing.isOf repeatedKinds) = [] :=
  filter_isOf_eq_nil (by decide) hfilings

theorem valueFilings_isOf {kinds : List DiagnosticKind} (hkind : .typeMismatch ∈ kinds)
    (decl : VariableDecl) : ∀ filing ∈ decl.valueFilings, filing.isOf kinds = true := by
  intro filing hmem
  rw [VariableDecl.valueFilings] at hmem
  split at hmem
  · split at hmem
    · cases hmem
    · rw [List.mem_singleton.mp hmem]
      exact decide_eq_true hkind
  · cases hmem

theorem bodyFilings_isOf {kinds : List DiagnosticKind} (hshadow : .shadowedParameter ∈ kinds)
    (hrepeat : .duplicateLocal ∈ kinds) (function : FunctionDecl) :
    ∀ filing ∈ function.bodyFilings, filing.isOf kinds = true := by
  intro filing hmem
  obtain ⟨flagged, _, hlocal⟩ := List.mem_flatMap.mp hmem
  rcases List.mem_append.mp hlocal with hfiling | hfiling
  · rw [eq_of_mem_ite hfiling]
    exact decide_eq_true hshadow
  · rw [eq_of_mem_ite hfiling]
    exact decide_eq_true hrepeat

theorem itemFilings_isOf (program : Program) (reach : CallReach) :
    ∀ filing ∈ program.items.flatMap (Item.filings reach program.definesFunction),
      filing.isOf itemKinds = true := by
  intro filing hmem
  obtain ⟨item, _, hfiling⟩ := List.mem_flatMap.mp hmem
  rcases List.mem_append.mp hfiling with hbody | hcall
  · obtain ⟨function, _, hlocal⟩ := List.mem_flatMap.mp hbody
    exact bodyFilings_isOf (by decide) (by decide) function filing hlocal
  · obtain ⟨node, _, hnode⟩ := List.mem_filterMap.mp hcall
    obtain ⟨name, _, rfl⟩ := Option.map_eq_some_iff.mp hnode
    rfl

/-! ## What is filed about the items in another order -/

section Permuted

variable {program permuted : Program} (hperm : program.items.Perm permuted.items)
include hperm

theorem globals_perm : program.globals.Perm permuted.globals :=
  hperm.filterMap Item.global?

theorem functions_perm : program.functions.Perm permuted.functions :=
  hperm.filterMap Item.function?

theorem definesFunction_perm : program.definesFunction = permuted.definesFunction := by
  funext name
  rw [Bool.eq_iff_iff, definesFunction_iff, definesFunction_iff]
  simp only [(functions_perm hperm).mem_iff]

/-- What is filed about the items on their own is the same, in another order. -/
theorem itemFilings_perm (reach : CallReach) :
    (program.items.flatMap (Item.filings reach program.definesFunction)).Perm
      (permuted.items.flatMap (Item.filings reach permuted.definesFunction)) := by
  rw [definesFunction_perm hperm]
  exact hperm.flatMap_right _

end Permuted

/-- Of the complaints about one item, the declarations only file those about values. -/
theorem filter_itemKinds_filings (program : Program) (reach : CallReach) :
    (program.filings reach).filter (Filing.isOf itemKinds) =
      program.globals.flatMap VariableDecl.valueFilings ++
        program.items.flatMap (Item.filings reach program.definesFunction) := by
  have hsignatures : ∀ (function : FunctionDecl) (repeated : Bool),
      (function.signatureFilings repeated).filter (Filing.isOf itemKinds) = [] := by
    intro function repeated
    cases repeated <;> rfl
  have hglobals : ∀ (decl : VariableDecl) (repeated : Bool),
      (decl.globalFilings repeated).filter (Filing.isOf itemKinds) = decl.valueFilings := by
    intro decl repeated
    rw [VariableDecl.globalFilings, List.filter_append,
      List.filter_eq_self.mpr (valueFilings_isOf (by decide) decl)]
    cases repeated <;> rfl
  rw [Program.filings, Program.declarationFilings, List.filter_append, List.filter_append,
    List.filter_eq_self.mpr (itemFilings_isOf program reach), filter_flagRepeats hsignatures,
    filter_flagRepeats hglobals, List.flatMap_eq_nil_iff.mpr fun _ _ => rfl, List.nil_append]

/-- What is said of a function with a signature that is taken. -/
def Signature.blame (signature : Signature) : DiagnosticKind × String :=
  (.duplicateFunction, (Finding.duplicateFunction signature).message)

/-- What is said of a global variable with a name that is taken. -/
def blameGlobal (name : String) : DiagnosticKind × String :=
  (.duplicateGlobal, (Finding.duplicateGlobal name).message)

/-- Repeated declarations are blamed by signature or by name. -/
theorem said_repeatedKinds_filings (program : Program) (reach : CallReach) :
    ((program.filings reach).filter (Filing.isOf repeatedKinds)).map Filing.said =
      (repeatedKeys Signature.ofFunction [] program.functions).map Signature.blame ++
        (repeatedKeys VariableDecl.name [] program.globals).map blameGlobal := by
  have hsignatures : ∀ (function : FunctionDecl) (repeated : Bool),
      ((function.signatureFilings repeated).filter (Filing.isOf repeatedKinds)).map Filing.said =
        if repeated then [(Signature.ofFunction function).blame] else [] := by
    intro function repeated
    cases repeated <;> rfl
  have hglobals : ∀ (decl : VariableDecl) (repeated : Bool),
      ((decl.globalFilings repeated).filter (Filing.isOf repeatedKinds)).map Filing.said =
        if repeated then [blameGlobal decl.name] else [] := by
    intro decl repeated
    rw [VariableDecl.globalFilings, List.filter_append,
      filter_repeatedKinds_eq_nil (valueFilings_isOf (by decide) decl)]
    cases repeated <;> rfl
  rw [Program.filings, Program.declarationFilings, List.filter_append, List.filter_append,
    filter_repeatedKinds_eq_nil (itemFilings_isOf program reach), List.append_nil,
    List.map_append,
    map_filter_flagRepeats Signature.ofFunction (fun decl => (Signature.ofFunction decl).blame)
      hsignatures,
    map_filter_flagRepeats VariableDecl.name (fun decl => blameGlobal decl.name) hglobals,
    repeatedKeys, repeatedKeys, List.map_map, List.map_map]
  rfl

/-! ## Scopes -/

theorem nodup_enterGlobal {state : ProgramScope × DiagnosticLog} (decl : VariableDecl)
    (hnodup : state.1.variableNames.Nodup) :
    (enterGlobal state decl).1.variableNames.Nodup := by
  rw [enterGlobal_eq state.1 state.2]
  by_cases htaken : decl.name ∈ state.1.variableNames
  · simpa only [ProgramScope.addVariable?, htaken, if_true, Option.getD_none] using hnodup
  · simpa only [ProgramScope.addVariable?, htaken, if_false, Option.getD_some,
      ← List.concat_eq_append] using hnodup.concat htaken

theorem nodup_enterFunction {state : ProgramScope × DiagnosticLog} (function : FunctionDecl)
    (hnodup : state.1.signatures.Nodup) :
    (enterFunction state function).1.signatures.Nodup := by
  by_cases htaken : Signature.ofFunction function ∈ state.1.signatures
  · simpa only [enterFunction, ProgramScope.addFunction?, htaken, if_true] using hnodup
  · simpa only [enterFunction, ProgramScope.addFunction?, htaken, if_false,
      ← List.concat_eq_append] using hnodup.concat htaken

section Permuted

variable {program permuted : Program} (hperm : program.items.Perm permuted.items)
include hperm

theorem variableNames_perm (log other : DiagnosticLog) :
    (enterDeclarations program ({}, log)).1.variableNames.Perm
      (enterDeclarations permuted ({}, other)).1.variableNames := by
  have hnone : ∀ (program : Program) (log : DiagnosticLog),
      (program.functions.foldl enterFunction ({}, log)).1.variableNames = [] :=
    fun program log => (enterFunction_enters []).foldl_keeps program.functions ({}, log) rfl
  exact (enterGlobal_enters []).known_foldl_perm (fun _ => nodup_enterGlobal)
    (globals_perm hperm) (hnone program log) (hnone permuted other)

theorem signatures_perm (log other : DiagnosticLog) :
    (enterDeclarations program ({}, log)).1.signatures.Perm
      (enterDeclarations permuted ({}, other)).1.signatures := by
  have hkept : ∀ (program : Program) (log : DiagnosticLog),
      (enterDeclarations program ({}, log)).1.signatures =
        (program.functions.foldl enterFunction ({}, log)).1.signatures :=
    fun program log => (enterGlobal_enters _).foldl_keeps program.globals _ rfl
  rw [hkept, hkept]
  exact (enterFunction_enters []).known_foldl_perm (fun _ => nodup_enterFunction)
    (functions_perm hperm) rfl rfl

theorem knowsFunction_perm (log other : DiagnosticLog) (name : String) :
    (enterDeclarations program ({}, log)).1.knowsFunction name =
      (enterDeclarations permuted ({}, other)).1.knowsFunction name :=
  (signatures_perm hperm log other).any_eq

/-! ## What is recorded -/

theorem filter_itemKinds_perm (reach : CallReach) :
    ((program.filings reach).filter (Filing.isOf itemKinds)).Perm
      ((permuted.filings reach).filter (Filing.isOf itemKinds)) := by
  rw [filter_itemKinds_filings, filter_itemKinds_filings]
  exact ((globals_perm hperm).flatMap_right _).append (itemFilings_perm hperm reach)

theorem said_repeatedKinds_perm (reach : CallReach) :
    (((program.filings reach).filter (Filing.isOf repeatedKinds)).map Filing.said).Perm
      (((permuted.filings reach).filter (Filing.isOf repeatedKinds)).map Filing.said) := by
  rw [said_repeatedKinds_filings, said_repeatedKinds_filings]
  exact ((repeatedKeys_perm _ (functions_perm hperm)).map _).append
    ((repeatedKeys_perm _ (globals_perm hperm)).map _)

end Permuted

namespace DiagnosticLog

/-- What the entries of some kinds say, with their places. -/
def placedFindings (log : DiagnosticLog) (kinds : List DiagnosticKind) :
    List (DiagnosticKind × String × Option Span) :=
  (log.entries.filter (·.kind ∈ kinds)).map fun entry =>
    (entry.kind, entry.message, entry.span)

/-- What the entries of some kinds say, without their places. -/
def saidFindings (log : DiagnosticLog) (kinds : List DiagnosticKind) :
    List (DiagnosticKind × String) :=
  (log.entries.filter (·.kind ∈ kinds)).map fun entry => (entry.kind, entry.message)

end DiagnosticLog

/-- An analysis of the same items in another order knows the same names.  It makes the
same complaints about what stands inside the items, and repeated declarations get as
many complaints of each wording. -/
theorem analyzeProgram_perm (reach : CallReach) {program permuted : Program}
    (hperm : program.items.Perm permuted.items) (first second : Nat) :
    let options : CheckOptions := { callReach := reach, stopAtUndefinedCall := false,
                                    resetOnUndefinedCall := false }
    let one := analyzeProgram options program { entries := [], nextId := first }
    let other := analyzeProgram options permuted { entries := [], nextId := second }
    one.1.globals.variableNames.Perm other.1.globals.variableNames ∧
      one.1.globals.signatures.Perm other.1.globals.signatures ∧
      (∀ name, one.1.globals.knowsFunction name = other.1.globals.knowsFunction name) ∧
      (one.2.placedFindings
          [.shadowedParameter, .duplicateLocal, .typeMismatch, .undefinedCall]).Perm
        (other.2.placedFindings
          [.shadowedParameter, .duplicateLocal, .typeMismatch, .undefinedCall]) ∧
      (one.2.saidFindings [.duplicateGlobal, .duplicateFunction]).Perm
        (other.2.saidFindings [.duplicateGlobal, .duplicateFunction]) := by
  intro options one other
  have hplaced : ∀ (program : Program) (id : Nat),
      (analyzeProgram options program { entries := [], nextId := id }).2.placedFindings
          itemKinds =
        ((program.filings reach).filter (Filing.isOf itemKinds)).map fun filing =>
          (filing.finding.kind, filing.finding.message, some filing.span) := by
    intro program id
    rw [DiagnosticLog.placedFindings, entries_analyzeProgram_of_not_stop _ _ rfl rfl]
    exact Filing.map_filter_numbered (· ∈ itemKinds)
      (fun kind message span => (kind, message, span)) _ id
  have hsaid : ∀ (program : Program) (id : Nat),
      (analyzeProgram options program { entries := [], nextId := id }).2.saidFindings
          repeatedKinds =
        ((program.filings reach).filter (Filing.isOf repeatedKinds)).map Filing.said := by
    intro program id
    rw [DiagnosticLog.saidFindings, entries_analyzeProgram_of_not_stop _ _ rfl rfl]
    exact Filing.map_filter_numbered (· ∈ repeatedKinds)
      (fun kind message _ => (kind, message)) _ id
  simp only [one, other, globals_analyzeProgram]
  refine ⟨variableNames_perm hperm _ _, signatures_perm hperm _ _,
    knowsFunction_perm hperm _ _, ?_, ?_⟩
  · rw [← itemKinds, hplaced, hplaced]
    exact (filter_itemKinds_perm hperm reach).map _
  · rw [← repeatedKinds, hsaid, hsaid]
    exact said_repeatedKinds_perm hperm reach

/-- Read backwards, a program gets the same complaints, but the other ones of its equal
declarations are blamed. -/
theorem analyzeProgram_perm_reversed :
    let program :=
      (parse "int a;float a;int f(int n){int n;g();}int f(int m){}".toList).program
    let reversed : Program := { items := program.items.reverse }
    let options : CheckOptions := { callReach := .deep, stopAtUndefinedCall := false,
                                    resetOnUndefinedCall := false }
    let one := analyzeProgram options program { entries := [], nextId := 0 }
    let other := analyzeProgram options reversed { entries := [], nextId := 7 }
    program.items.Perm reversed.items ∧
      (one.2.placedFindings
          [.shadowedParameter, .duplicateLocal, .typeMismatch, .undefinedCall]).Perm
        (other.2.placedFindings
          [.shadowedParameter, .duplicateLocal, .typeMismatch, .undefinedCall]) ∧
      (one.2.saidFindings [.duplicateGlobal, .duplicateFunction]).Perm
        (other.2.saidFindings [.duplicateGlobal, .duplicateFunction]) ∧
      one.2.entries.map Diagnostic.kind =
        [.duplicateFunction, .duplicateGlobal, .shadowedParameter, .undefinedCall] ∧
      one.2.placedFindings [.duplicateGlobal] ≠ other.2.placedFindings [.duplicateGlobal] := by
  intro program reversed options one other
  have hreverse : ∀ program : Program,
      program.items.Perm ({ items := program.items.reverse } : Program).items :=
    fun program => (List.reverse_perm program.items).symm
  have hperm : program.items.Perm reversed.items := hreverse program
  obtain ⟨_, _, _, hplaced, hsaid⟩ := @analyzeProgram_perm .deep program reversed hperm 0 7
  exact ⟨hperm, hplaced, hsaid, by decide +kernel, by decide +kernel⟩

end DeclCheck
