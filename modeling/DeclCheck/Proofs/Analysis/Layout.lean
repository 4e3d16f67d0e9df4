import DeclCheck.Proofs.Analysis.Recorded
import DeclCheck.Proofs.Parser.Exactness
import DeclCheck.Proofs.Parser.Relocate
import DeclCheck.Proofs.Program.Layout
import Mathlib.Data.List.Basic

/-!
# A check does not depend on layout

Two source texts with the same good tokens are read as the same program up to spans,
with the same syntax errors, and the same is said of both programs.  White space,
comments, positions and lexical errors between the tokens make no difference.
-/

namespace DeclCheck

/-- The filing without its place. -/
def Filing.bare (filing : Filing) : Filing :=
  { filing with span := {} }

/-! ## Filings about trees without places -/

section Passes

variable {α κ : Type} [DecidableEq κ] (key : α → κ) (blank : α → α)

theorem flagRepeats_map (hkey : ∀ decl, key (blank decl) = key decl) (decls : List α) :
    ∀ seen : List κ, flagRepeats key seen (decls.map blank) =
      (flagRepeats key seen decls).map (Prod.map blank id) := by
  induction decls with
  | nil => exact fun seen => rfl
  | cons decl rest ih =>
      intro seen
      rw [List.map_cons, flagRepeats, flagRepeats, hkey, ih, List.map_cons]
      rfl

/-- A pass over blanked declarations files the blanked filings, if it does so for
each of them. -/
theorem flatMap_flagRepeats_map {filings filingsBare : α → Bool → List Filing}
    (hkey : ∀ decl, key (blank decl) = key decl)
    (hfilings : ∀ decl repeated,
      filingsBare (blank decl) repeated = (filings decl repeated).map Filing.bare)
    (decls : List α) :
    ((flagRepeats key [] (decls.map blank)).flatMap fun flagged =>
        filingsBare flagged.1 flagged.2) =
      ((flagRepeats key [] decls).flatMap fun flagged =>
        filings flagged.1 flagged.2).map Filing.bare := by
  rw [flagRepeats_map key blank hkey, List.flatMap_map, List.map_flatMap]
  apply List.flatMap_congr
  intro flagged _
  exact hfilings flagged.1 flagged.2

end Passes

theorem signatureFilings_bare (function : FunctionDecl) (repeated : Bool) :
    function.bare.signatureFilings repeated =
      (function.signatureFilings repeated).map Filing.bare := by
  rw [FunctionDecl.signatureFilings, FunctionDecl.signature_bare]
  cases repeated <;> rfl

theorem valueFilings_bare (decl : VariableDecl) :
    decl.bare.valueFilings = decl.valueFilings.map Filing.bare := by
  cases decl with
  | mk type name init span =>
      cases init with
      | none => rfl
      | some value =>
          simp only [VariableDecl.valueFilings, VariableDecl.bare, Option.map_some,
            Expr.text_bare]
          split <;> rfl

theorem globalFilings_bare (decl : VariableDecl) (repeated : Bool) :
    decl.bare.globalFilings repeated = (decl.globalFilings repeated).map Filing.bare := by
  rw [VariableDecl.globalFilings, valueFilings_bare, VariableDecl.globalFilings,
    List.map_append]
  cases repeated <;> rfl

theorem localFilings_bare (function : FunctionDecl) (decl : VariableDecl)
    (repeated : Bool) :
    decl.bare.localFilings function.bare repeated =
      (decl.localFilings function repeated).map Filing.bare := by
  rw [VariableDecl.localFilings, FunctionDecl.names_parameters_bare,
    VariableDecl.localFilings, List.map_append]
  congr 1
  · by_cases hshadows : decl.name ∈ function.parameters.map Parameter.name
    · rw [if_pos hshadows]
      exact if_pos hshadows
    · rw [if_neg hshadows]
      exact if_neg hshadows
  · cases repeated <;> rfl

theorem bodyFilings_bare (function : FunctionDecl) :
    function.bare.bodyFilings = function.bodyFilings.map Filing.bare := by
  rw [FunctionDecl.bodyFilings, FunctionDecl.locals_bare]
  exact flatMap_flagRepeats_map VariableDecl.name VariableDecl.bare (fun _ => rfl)
    (localFilings_bare function) function.locals

theorem declarationFilings_bare (program : Program) :
    program.bare.declarationFilings = program.declarationFilings.map Filing.bare := by
  rw [Program.declarationFilings, Program.functions_bare, Program.globals_bare,
    flatMap_flagRepeats_map _ FunctionDecl.bare FunctionDecl.signature_bare
      signatureFilings_bare,
    flatMap_flagRepeats_map _ VariableDecl.bare (fun _ => rfl) globalFilings_bare,
    Program.declarationFilings, List.map_append]

theorem callFiling?_bare (defined : String → Bool) (node : Expr) :
    callFiling? defined node.bare = (callFiling? defined node).map Filing.bare := by
  rw [callFiling?, Expr.callee?_bare, callFiling?, Option.map_map, Expr.span_bare]
  rfl

theorem examinedNodes_map_bare (reach : CallReach) (sites : List Expr) :
    examinedNodes reach (sites.map Expr.bare) =
      (examinedNodes reach sites).map Expr.bare := by
  rw [examinedNodes, List.flatMap_map, examinedNodes, List.map_flatMap]
  apply List.flatMap_congr
  intro site _
  exact site.examined_bare reach

theorem itemFilings_bare (reach : CallReach) (defined : String → Bool) (item : Item) :
    item.bare.filings reach defined = (item.filings reach defined).map Filing.bare := by
  rw [Item.filings, Item.sites_bare, examinedNodes_map_bare, Item.function?_bare,
    Item.filings, List.map_append]
  congr 1
  · cases item.function? with
    | none => rfl
    | some function => simp [bodyFilings_bare]
  · rw [List.filterMap_map, List.map_filterMap]
    apply List.filterMap_congr
    intro node _
    exact callFiling?_bare defined node

theorem definesFunction_bare (program : Program) :
    program.bare.definesFunction = program.definesFunction := by
  funext name
  rw [Program.definesFunction, Program.functions_bare, List.any_map]
  rfl

/-- What is to be filed about a program without places is what is to be filed about
the program, without places. -/
theorem filings_bare (program : Program) (reach : CallReach) :
    program.bare.filings reach = (program.filings reach).map Filing.bare := by
  rw [Program.filings, declarationFilings_bare, definesFunction_bare, Program.bare,
    List.flatMap_map, Program.filings, List.map_append, List.map_flatMap]
  congr 1
  apply List.flatMap_congr
  intro item _
  exact itemFilings_bare reach program.definesFunction item

/-! ## Source texts -/

/-- What a check says of a program can be told from the program without places. -/
theorem semanticFindings_check_bare (options : CheckOptions) (source : List Char) :
    (check options source).diagnostics.semanticFindings =
      (options.kept ((parse source).program.bare.filings options.callReach)).map
        Filing.said := by
  have hcall : ∀ filing : Filing, filing.bare.isUndefinedCall = filing.isUndefinedCall :=
    fun _ => rfl
  rw [semanticFindings_check, filings_bare, options.kept_map hcall, List.map_map]
  rfl

theorem parse_bare (source : List Char) :
    (parse source).program.bare.items =
        (Parser.items ((goodTokens (lex source)).map Token.bare) {}).1 ∧
      (parse source).syntaxErrors.map SyntaxError.bare =
        (Parser.items ((goodTokens (lex source)).map Token.bare) {}).2.reports.map
          Report.error := by
  rw [Parser.items_map_bare _ (endSpan source)]
  constructor
  · rfl
  · rw [Parser.syntaxErrors_parse]
    simp [ParserState.bare, Report.bare]

/-- Texts with the same good tokens are read alike, and the same is said of them. -/
theorem check_layout_independent {left right : List Char}
    (htokens : (goodTokens (lex left)).map Token.kind =
      (goodTokens (lex right)).map Token.kind) :
    (parse left).program.bare = (parse right).program.bare ∧
      (parse left).syntaxErrors.map SyntaxError.message =
        (parse right).syntaxErrors.map SyntaxError.message ∧
      (parse left).program.functionEntries = (parse right).program.functionEntries ∧
      (parse left).program.globalEntries = (parse right).program.globalEntries ∧
      ∀ options : CheckOptions,
        (check options left).diagnostics.semanticFindings =
          (check options right).diagnostics.semanticFindings := by
  have hbare : (goodTokens (lex left)).map Token.bare =
      (goodTokens (lex right)).map Token.bare := by
    rw [map_bare_eq_map_kind, htokens, ← map_bare_eq_map_kind]
  obtain ⟨hleftItems, hleftErrors⟩ := parse_bare left
  obtain ⟨hrightItems, hrightErrors⟩ := parse_bare right
  rw [hbare] at hleftItems hleftErrors
  have hprogram : (parse left).program.bare = (parse right).program.bare :=
    congrArg Program.mk (hleftItems.trans hrightItems.symm)
  have hmessages : ∀ errors : List SyntaxError,
      errors.map SyntaxError.message =
        (errors.map SyntaxError.bare).map SyntaxError.message := by
    intro errors
    rw [List.map_map]
    rfl
  refine ⟨hprogram, ?_, ?_, ?_, ?_⟩
  · rw [hmessages, hleftErrors, ← hrightErrors, ← hmessages]
  · rw [← Program.functionEntries_bare, hprogram, Program.functionEntries_bare]
  · rw [← Program.globalEntries_bare, hprogram, Program.globalEntries_bare]
  · intro options
    rw [semanticFindings_check_bare, hprogram, ← semanticFindings_check_bare]

/-- Comments, line breaks and a character that starts no token change neither the
tree, nor the complaint about the missing argument, nor the undefined call. -/
theorem check_layout_independent_spread :
    let compact := "int x=f(y);g(;".toList
    let spread := "int x // one\n = @f(y) /* two */ ;\n\n g ( ;".toList
    (goodTokens (lex compact)).map Token.kind =
        (goodTokens (lex spread)).map Token.kind ∧
      (parse compact).program.bare = (parse spread).program.bare ∧
      (parse compact).syntaxErrors.map SyntaxError.message =
        (parse spread).syntaxErrors.map SyntaxError.message ∧
      ∀ options : CheckOptions,
        (check options compact).diagnostics.semanticFindings =
          (check options spread).diagnostics.semanticFindings := by
  intro compact spread
  have htokens : (goodTokens (lex compact)).map Token.kind =
      (goodTokens (lex spread)).map Token.kind := by decide +kernel
  obtain ⟨hprogram, herrors, _, _, hfindings⟩ := check_layout_independent htokens
  exact ⟨htokens, hprogram, herrors, hfindings⟩

end DeclCheck
