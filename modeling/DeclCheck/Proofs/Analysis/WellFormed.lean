import DeclCheck.Check
import DeclCheck.Proofs.Analysis.Runs
import DeclCheck.Proofs.Program.Sites

/-!
# A program without findings

What an analysis accepts is said here without any pass or log: what is declared is
declared once, initial values suit their types, and calls name functions of the
program.  An analysis has nothing to say of a program exactly if the program is
well-formed, whether or not it stops or drops findings on the way.
-/

namespace DeclCheck

/-- A program in which an analysis finds nothing wrong, told of its tree alone.  How many
calls are looked at depends on the reach. -/
structure Program.WellFormed (program : Program) (reach : CallReach) : Prop where
  /-- No two functions share both name and parameter types. -/
  signatures : program.functions.Pairwise fun first second =>
    first.name ≠ second.name ∨
      first.parameters.map Parameter.type ≠ second.parameters.map Parameter.type
  globals : (program.globals.map VariableDecl.name).Nodup
  values : ∀ decl ∈ program.globals, ∀ value, decl.init = some value →
    suits decl.type value.text = true
  /-- No two statements that stand directly in a body declare the same name. -/
  locals : ∀ function ∈ program.functions, function.statements.Pairwise fun first second =>
    ∀ decl, first = .declare decl → ∀ other, second = .declare other →
      decl.name ≠ other.name
  shadows : ∀ function ∈ program.functions, ∀ decl, .declare decl ∈ function.statements →
    ∀ param ∈ function.parameters, decl.name ≠ param.name
  calls : ∀ item ∈ program.items, ∀ site, item.HasSite site → ∀ span name args,
    site.Examines reach (.call span name args) →
      ∃ function ∈ program.functions, function.name = name

/-! ## What a pass looks at -/

theorem callee?_eq_some_iff {node : Expr} {name : String} :
    node.callee? = some name ↔ ∃ span args, node = .call span name args := by
  cases node <;> simp [Expr.callee?]

theorem declared?_eq_some_iff {stmt : Stmt} {decl : VariableDecl} :
    stmt.declared? = some decl ↔ stmt = .declare decl := by
  cases stmt <;> simp [Stmt.declared?]

theorem mem_locals_iff {function : FunctionDecl} {decl : VariableDecl} :
    decl ∈ function.locals ↔ .declare decl ∈ function.statements := by
  simp only [FunctionDecl.locals, List.mem_filterMap, declared?_eq_some_iff,
    exists_eq_right]

theorem nodup_locals_iff (function : FunctionDecl) :
    (function.locals.map VariableDecl.name).Nodup ↔
      function.statements.Pairwise fun first second =>
        ∀ decl, first = .declare decl → ∀ other, second = .declare other →
          decl.name ≠ other.name := by
  rw [List.Nodup, List.pairwise_map, FunctionDecl.locals, List.pairwise_filterMap]
  simp only [declared?_eq_some_iff]

theorem nodup_signatures_iff (functions : List FunctionDecl) :
    (functions.map Signature.ofFunction).Nodup ↔
      functions.Pairwise fun first second =>
        first.name ≠ second.name ∨
          first.parameters.map Parameter.type ≠ second.parameters.map Parameter.type := by
  rw [List.Nodup, List.pairwise_map]
  simp only [Signature.ofFunction, ne_eq, Signature.mk.injEq,
    Decidable.not_and_iff_not_or_not]

/-! ## Nothing to file -/

theorem signatureFilings_eq_nil_iff {function : FunctionDecl} {repeated : Bool} :
    function.signatureFilings repeated = [] ↔ repeated = false := by
  cases repeated <;> simp [FunctionDecl.signatureFilings]

theorem valueFilings_eq_nil_iff {decl : VariableDecl} :
    decl.valueFilings = [] ↔ ∀ value, decl.init = some value →
      suits decl.type value.text = true := by
  rw [VariableDecl.valueFilings]
  cases decl.init with
  | none => simp
  | some value => simp

theorem globalFilings_eq_nil_iff {decl : VariableDecl} {repeated : Bool} :
    decl.globalFilings repeated = [] ↔ repeated = false ∧ decl.valueFilings = [] := by
  cases repeated <;> simp [VariableDecl.globalFilings]

theorem localFilings_eq_nil_iff {function : FunctionDecl} {decl : VariableDecl}
    {repeated : Bool} :
    decl.localFilings function repeated = [] ↔
      repeated = false ∧ ∀ param ∈ function.parameters, decl.name ≠ param.name := by
  have hfree : decl.name ∉ function.parameters.map Parameter.name ↔
      ∀ param ∈ function.parameters, decl.name ≠ param.name := by
    simp [eq_comm]
  rw [VariableDecl.localFilings, List.append_eq_nil_iff, ← hfree, and_comm]
  cases repeated <;> simp

theorem declarationFilings_eq_nil_iff (program : Program) :
    program.declarationFilings = [] ↔
      (program.functions.Pairwise fun first second =>
        first.name ≠ second.name ∨
          first.parameters.map Parameter.type ≠ second.parameters.map Parameter.type) ∧
      (program.globals.map VariableDecl.name).Nodup ∧
      ∀ decl ∈ program.globals, ∀ value, decl.init = some value →
        suits decl.type value.text = true := by
  rw [← nodup_signatures_iff, Program.declarationFilings, List.append_eq_nil_iff,
    List.flatMap_eq_nil_iff, List.flatMap_eq_nil_iff]
  simp only [signatureFilings_eq_nil_iff, globalFilings_eq_nil_iff,
    valueFilings_eq_nil_iff]
  rw [forall_flagRepeats_iff VariableDecl.name program.globals fun decl =>
    ∀ value, decl.init = some value → suits decl.type value.text = true,
    flagRepeats_all_false_iff]
  simp

theorem bodyFilings_eq_nil_iff (function : FunctionDecl) :
    function.bodyFilings = [] ↔
      (function.statements.Pairwise fun first second =>
        ∀ decl, first = .declare decl → ∀ other, second = .declare other →
          decl.name ≠ other.name) ∧
      ∀ decl, .declare decl ∈ function.statements → ∀ param ∈ function.parameters,
        decl.name ≠ param.name := by
  rw [FunctionDecl.bodyFilings, List.flatMap_eq_nil_iff, ← nodup_locals_iff]
  simp only [localFilings_eq_nil_iff, ← mem_locals_iff]
  exact forall_flagRepeats_iff VariableDecl.name function.locals fun decl =>
    ∀ param ∈ function.parameters, decl.name ≠ param.name

theorem callFiling?_eq_none_iff {defined : String → Bool} {node : Expr} :
    callFiling? defined node = none ↔
      ∀ span name args, node = .call span name args → defined name = true := by
  rw [callFiling?, Option.map_eq_none_iff, Option.filter_eq_none_iff]
  simp only [callee?_eq_some_iff, Bool.not_eq_true', Bool.not_eq_false]
  constructor
  · exact fun hall span name args hnode => hall name ⟨span, args, hnode⟩
  · rintro hall name ⟨span, args, hnode⟩
    exact hall span name args hnode

theorem itemFilings_eq_nil_iff (program : Program) (reach : CallReach) (item : Item) :
    item.filings reach program.definesFunction = [] ↔
      (∀ function, item.function? = some function → function.bodyFilings = []) ∧
        ∀ site, item.HasSite site → ∀ span name args,
          site.Examines reach (.call span name args) →
            ∃ function ∈ program.functions, function.name = name := by
  rw [Item.filings, List.append_eq_nil_iff, List.flatMap_eq_nil_iff,
    List.filterMap_eq_nil_iff]
  simp only [Option.mem_toList, callFiling?_eq_none_iff, definesFunction_iff,
    examinedNodes, List.mem_flatMap, Item.mem_sites_iff, Expr.mem_examined_iff]
  constructor
  · rintro ⟨hbody, hcalls⟩
    exact ⟨hbody, fun site hsite span name args hnode =>
      hcalls _ ⟨site, hsite, hnode⟩ span name args rfl⟩
  · rintro ⟨hbody, hcalls⟩
    refine ⟨hbody, ?_⟩
    rintro node ⟨site, hsite, hnode⟩ span name args rfl
    exact hcalls site hsite span name args hnode

theorem filings_eq_nil_iff (program : Program) (reach : CallReach) :
    program.filings reach = [] ↔ program.WellFormed reach := by
  have hfunctions : ∀ property : FunctionDecl → Prop,
      (∀ item ∈ program.items, ∀ function, item.function? = some function →
        property function) ↔ ∀ function ∈ program.functions, property function := by
    intro property
    simp only [Program.functions, List.mem_filterMap]
    constructor
    · rintro hall function ⟨item, hitem, hfunction⟩
      exact hall item hitem function hfunction
    · exact fun hall item hitem function hfunction =>
        hall function ⟨item, hitem, hfunction⟩
  rw [Program.filings, List.append_eq_nil_iff, declarationFilings_eq_nil_iff,
    List.flatMap_eq_nil_iff]
  simp only [itemFilings_eq_nil_iff]
  constructor
  · rintro ⟨⟨hsignatures, hglobals, hvalues⟩, hitems⟩
    have hbodies := (hfunctions fun function => function.bodyFilings = []).mp
      fun item hitem => (hitems item hitem).1
    simp only [bodyFilings_eq_nil_iff] at hbodies
    exact
      { signatures := hsignatures
        globals := hglobals
        values := hvalues
        locals := fun function hmem => (hbodies function hmem).1
        shadows := fun function hmem => (hbodies function hmem).2
        calls := fun item hitem => (hitems item hitem).2 }
  · intro hwell
    refine ⟨⟨hwell.signatures, hwell.globals, hwell.values⟩, fun item hitem =>
      ⟨?_, hwell.calls item hitem⟩⟩
    refine (hfunctions fun function => function.bodyFilings = []).mpr ?_ item hitem
    exact fun function hmem => (bodyFilings_eq_nil_iff function).mpr
      ⟨hwell.locals function hmem, hwell.shadows function hmem⟩

/-! ## Nothing filed -/

open DiagnosticLog

theorem entries_isPrefix_fileUntil (stop : Bool) (filings : List Filing) :
    ∀ log : DiagnosticLog, log.entries <+: (fileUntil stop filings log).2.entries := by
  induction filings with
  | nil => exact fun log => List.prefix_refl _
  | cons filing rest ih =>
      intro log
      have hfiled : log.entries <+: (log.file filing.finding filing.span).entries :=
        List.prefix_append _ _
      rw [fileUntil]
      split
      · exact hfiled
      · exact hfiled.trans (ih _)

/-- Whatever stops it, a run files at least the first of its findings. -/
theorem entries_fileUntil_eq_nil_iff (stop : Bool) (filings : List Filing) (id : Nat) :
    (fileUntil stop filings { nextId := id }).2.entries = [] ↔ filings = [] := by
  cases filings with
  | nil => simp [fileUntil]
  | cons filing rest =>
      have hgrows := entries_isPrefix_fileUntil stop rest
        (({ nextId := id } : DiagnosticLog).file filing.finding filing.span)
      rw [fileUntil]
      split
      · simp [file, addAt, add]
      · have hlength := hgrows.length_le
        simp only [file, addAt, add, List.nil_append, List.length_singleton] at hlength
        constructor
        · intro hnil
          rw [file, addAt, add, List.nil_append] at hnil
          rw [hnil] at hlength
          exact absurd hlength (by decide)
        · intro hcons
          cases hcons

/-- The finding at which a run stopped is there under its number. -/
theorem mem_entries_of_fileUntil (stop : Bool) (filings : List Filing)
    (number : Nat) :
    ∀ log : DiagnosticLog, (fileUntil stop filings log).1 = some number →
      ∃ entry ∈ (fileUntil stop filings log).2.entries, entry.id = number := by
  induction filings with
  | nil =>
      intro log hstopped
      cases hstopped
  | cons filing rest ih =>
      intro log hstopped
      rw [fileUntil] at hstopped ⊢
      by_cases hlast : (stop && filing.isUndefinedCall) = true
      · simp only [hlast, if_true] at hstopped ⊢
        refine ⟨_, List.mem_append_right _ List.mem_cons_self, ?_⟩
        exact Option.some.inj hstopped
      · simp only [hlast, Bool.false_eq_true, if_false] at hstopped ⊢
        exact ih _ hstopped

/-- Neither stopping nor dropping findings turns some findings into none. -/
theorem entries_analyzeProgram_eq_nil_iff (options : CheckOptions) (program : Program)
    (id : Nat) :
    (analyzeProgram options program { nextId := id }).2.entries = [] ↔
      program.filings options.callReach = [] := by
  have hrun := analyze_fileUntil
    { options.toAnalysisOptions with
      stopAtUndefinedCall :=
        options.stopAtUndefinedCall || options.resetOnUndefinedCall }
    program { nextId := id }
  have hempty := entries_fileUntil_eq_nil_iff
    (options.stopAtUndefinedCall || options.resetOnUndefinedCall)
    (program.filings options.callReach) id
  have hlast := fun number => mem_entries_of_fileUntil
    (options.stopAtUndefinedCall || options.resetOnUndefinedCall)
    (program.filings options.callReach) number { nextId := id }
  simp only at hrun
  rw [← hrun] at hempty hlast
  rw [← hempty, analyzeProgram]
  generalize analyze _ program { nextId := id } = result at hlast
  obtain ⟨analysis, log⟩ := result
  simp only at hlast ⊢
  split
  · rename_i number hreset hstopped
    obtain ⟨entry, hentry, hid⟩ := hlast number hstopped
    have hkept : entry ∈ (log.keepOnly number).entries :=
      List.mem_filter.mpr ⟨hentry, decide_eq_true hid⟩
    constructor
    · intro hnil
      rw [hnil] at hkept
      cases hkept
    · intro hnil
      rw [hnil] at hentry
      cases hentry
  · exact Iff.rfl

/-- An analysis that starts with an empty log leaves it empty exactly for the
well-formed programs, under all options. -/
theorem analyzeProgram_clean_iff_wellFormed (options : CheckOptions)
    (program : Program) (id : Nat) :
    (analyzeProgram options program { entries := [], nextId := id }).2.entries = [] ↔
      program.WellFormed options.callReach :=
  (entries_analyzeProgram_eq_nil_iff options program id).trans
    (filings_eq_nil_iff program options.callReach)

end DeclCheck
