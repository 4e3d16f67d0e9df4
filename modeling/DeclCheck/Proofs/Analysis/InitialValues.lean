import DeclCheck.Proofs.Report.CompactText
import DeclCheck.Proofs.Token.ValueForms

/-!
# Initial values by their tree

An initial value is checked by its compact text alone.  The verdict is nevertheless one
about the tree: no compound expression has the text of a number but a minus before a
literal, and only the tokens of strings begin or end with a quote.
-/

namespace DeclCheck

/-! ## Literals -/

namespace Expr

def isInteger : Expr → Bool
  | integer .. => true
  | _ => false

/-- Whether an expression is an integer or a float, without a sign. -/
def isNumber : Expr → Bool
  | integer .. => true
  | float .. => true
  | _ => false

/-- Whether an expression, or what stands behind its minus, is a literal of some sort. -/
def isSigned (isLiteral : Expr → Bool) : Expr → Bool
  | unary _ .negate operand => isLiteral operand
  | expr => isLiteral expr

/-- The kind of the token that a number is read from. -/
def number? : Expr → Option TokenKind
  | integer _ text => some (.integer text)
  | float _ text => some (.float text)
  | _ => none

/-- The kind of the number behind a minus. -/
def negated? : Expr → Option TokenKind
  | unary _ .negate operand => operand.number?
  | _ => none

theorem isInteger_eq_any (expr : Expr) : expr.isInteger = expr.number?.any TokenKind.isInteger := by
  cases expr <;> rfl

theorem isNumber_eq_any (expr : Expr) : expr.isNumber = expr.number?.any TokenKind.isNumber := by
  cases expr <;> rfl

theorem isSigned_any (expr : Expr) (isLiteral : TokenKind → Bool) :
    expr.isSigned (·.number?.any isLiteral) =
      (expr.number?.any isLiteral || expr.negated?.any isLiteral) := by
  cases expr with
  | unary span op operand => cases op <;> simp [isSigned, number?, negated?]
  | _ => simp [isSigned, number?, negated?]

end Expr

namespace Grammar

/-- The tokens are the number exactly if the tree is, and so with a minus before it. -/
def NumbersAgree (kind : TokenKind) (tokens : List Token) (expr : Expr) : Prop :=
  (tokens.map Token.kind = [kind] ↔ expr.number? = some kind) ∧
    (tokens.map Token.kind = [.symbol .minus, kind] ↔ expr.negated? = some kind)

section NumbersAgree

variable {kind : TokenKind} {tokens : List Token} {expr : Expr}

theorem numbersAgree_number (token : Token) (hnumber : expr.number? = some token.kind)
    (hnegated : expr.negated? = none) : NumbersAgree kind [token] expr := by
  simp [NumbersAgree, hnumber, hnegated]

/-- What begins with another token is no number. -/
theorem numbersAgree_of_first (hkind : kind.isNumber = true) {first : Token}
    (hfirst : first.kind.isNumber = false) (hminus : decide (first.kind = .symbol .minus) = false)
    (hnumber : expr.number? = none) (hnegated : expr.negated? = none) :
    NumbersAgree kind (first :: tokens) expr := by
  have hne : first.kind ≠ kind := by
    rintro rfl
    rw [hfirst] at hkind
    cases hkind
  simp [NumbersAgree, hnumber, hnegated, hne, of_decide_eq_false hminus]

theorem NumbersAgree.unary (hkind : kind.isNumber = true) (start span : Span) (op : UnaryOp)
    (hoperand : NumbersAgree kind tokens expr) :
    NumbersAgree kind (⟨.symbol op.symbol, start⟩ :: tokens) (.unary span op expr) := by
  cases op with
  | not => exact numbersAgree_of_first hkind rfl rfl rfl rfl
  | negate =>
      have hne : TokenKind.symbol .minus ≠ kind := by
        rintro rfl
        cases hkind
      constructor
      · simp [Expr.number?, UnaryOp.symbol, hne]
      · rw [Expr.negated?, ← hoperand.1]
        simp [UnaryOp.symbol]

/-- Both operands have tokens, so with the operator there are three at least. -/
theorem numbersAgree_binary {left right : List Token} (hleft : left.map Token.kind ≠ [])
    (hright : right.map Token.kind ≠ []) (mark : Token) (hnumber : expr.number? = none)
    (hnegated : expr.negated? = none) : NumbersAgree kind (left ++ mark :: right) expr := by
  obtain ⟨first, rest, hfirst⟩ := List.exists_cons_of_ne_nil hleft
  obtain ⟨other, more, hother⟩ := List.exists_cons_of_ne_nil hright
  simp [NumbersAgree, hnumber, hnegated, hfirst, hother, List.append_eq_singleton_iff]

end NumbersAgree

/-- A single token that is a number derives the number, a minus and a number derive the
number with a minus before it, and nothing else does. -/
theorem DerivesExpr.numbersAgree :
    ∀ {cls : ExprClass} {tokens : List Token} {expr : Expr}, DerivesExpr cls tokens expr →
      ∀ {kind : TokenKind}, kind.isNumber = true → NumbersAgree kind tokens expr
  | _, _, _, .integer _ _, _, _ => numbersAgree_number _ rfl rfl
  | _, _, _, .float _ _, _, _ => numbersAgree_number _ rfl rfl
  | _, _, _, .string _ _, _, hkind => numbersAgree_of_first hkind rfl rfl rfl rfl
  | _, _, _, .boolean _ _, _, hkind => numbersAgree_of_first hkind rfl rfl rfl rfl
  | _, _, _, .identifier _ _, _, hkind => numbersAgree_of_first hkind rfl rfl rfl rfl
  | _, _, _, .emptyCall _ _ _ _, _, hkind => numbersAgree_of_first hkind rfl rfl rfl rfl
  | _, _, _, .call _ _ _ _ _, _, hkind => numbersAgree_of_first hkind rfl rfl rfl rfl
  | _, _, _, .paren _ _ _, _, hkind => numbersAgree_of_first hkind rfl rfl rfl rfl
  | _, _, _, .ofPrimary hprimary, _, hkind => hprimary.numbersAgree hkind
  | _, _, _, .unary _ op hoperand, _, hkind =>
      (hoperand.numbersAgree hkind).unary hkind _ _ op
  | _, _, _, .ofOperand _ hoperand, _, hkind => hoperand.numbersAgree hkind
  | _, _, _, .binary _ _ hleft hright, _, _ =>
      numbersAgree_binary hleft.linked.ne_nil hright.linked.ne_nil _ rfl rfl
  | _, _, _, .ofChain hchain, _, hkind => hchain.numbersAgree hkind
  | _, _, _, .assign _ _ _ _, _, hkind => numbersAgree_of_first hkind rfl rfl rfl rfl

/-- The tokens are a number, or a minus and a number, exactly if the tree is. -/
theorem DerivesExpr.signed_iff {cls : ExprClass} {tokens : List Token} {expr : Expr}
    (hexpr : DerivesExpr cls tokens expr) {isLiteral : TokenKind → Bool}
    (hliteral : ∀ kind, isLiteral kind = true → kind.isNumber = true) :
    (∃ kind, isLiteral kind = true ∧
        (tokens.map Token.kind = [kind] ∨ tokens.map Token.kind = [.symbol .minus, kind])) ↔
      expr.isSigned (·.number?.any isLiteral) = true := by
  have htokens : ∀ kind, (isLiteral kind = true ∧
      (tokens.map Token.kind = [kind] ∨ tokens.map Token.kind = [.symbol .minus, kind])) ↔
      isLiteral kind = true ∧ (expr.number? = some kind ∨ expr.negated? = some kind) := by
    intro kind
    refine and_congr_right fun hkind => ?_
    obtain ⟨hsingle, hminus⟩ := hexpr.numbersAgree (hliteral kind hkind)
    rw [hsingle, hminus]
  rw [exists_congr htokens, expr.isSigned_any]
  simp [and_or_left, exists_or, Option.any_eq_true, and_comm]

end Grammar

/-! ## The verdict on a value -/

/-- A value, read from the given tokens, is what a variable of the type may start with: for
numbers a literal or a minus and a literal, for strings anything between two strings. -/
def Fits (type : String) (value : Expr) (tokens : List Token) : Prop :=
  (type = "int" ∧ value.isSigned Expr.isInteger = true) ∨
    ((type = "float" ∨ type = "double") ∧ value.isSigned Expr.isNumber = true) ∨
    (type = "string" ∧ (∃ first ∈ tokens.head?, first.kind.isString = true) ∧
      ∃ last ∈ tokens.getLast?, last.kind.isString = true)

section Verdict

open Grammar ValueForm

variable {tokens : List Token} {value : Expr}
  (hspelled : ∀ token ∈ tokens, token.kind.IsSpelled)
  (hvalue : DerivesExpr .expression tokens value)
include hspelled hvalue

/-- Where texts are recognized as literals of some kinds, the text of a value is recognized
up to its sign exactly if its tree is such a literal up to a minus. -/
theorem recognizes_text_iff {form : List Char → Bool} {isLiteral : TokenKind → Bool}
    (hform : Recognizes form isLiteral)
    (hliteral : ∀ kind, isLiteral kind = true → kind.isNumber = true) :
    form (dropSign value.text.toList) = true ↔
      value.isSigned (·.number?.any isLiteral) = true := by
  have hkinds := List.forall_mem_map.mpr hspelled
  have hlinked := hvalue.linked
  have hapart : (tokens.map Token.kind).IsChain TokenKind.Apart :=
    hlinked.chain.imp_of_mem_imp fun _ second _ hsecond hboth =>
      hboth.apart (hkinds second hsecond)
  have hplus : (tokens.map Token.kind).head? ≠ some (.symbol .plus) := by
    intro hhead
    exact absurd (hlinked.starts _ hhead) (by decide)
  rw [hvalue.text_eq, hform.signed_iff hkinds hapart hplus, hvalue.signed_iff hliteral]

theorem isQuoted_text_iff :
    isQuoted value.text.toList = true ↔
      (∃ first ∈ tokens.head?, first.kind.isString = true) ∧
        ∃ last ∈ tokens.getLast?, last.kind.isString = true := by
  have hkinds := List.forall_mem_map.mpr hspelled
  rw [hvalue.text_eq, isQuoted_spelled_iff hkinds, List.head?_map, List.getLast?_map]
  simp

/-- The check of the text agrees with the tree. -/
theorem suits_iff_fits (type : String) :
    suits type value.text = true ↔ Fits type value tokens := by
  have hinteger := recognizes_text_iff hspelled hvalue isDigits_recognizes
    fun _ hkind => TokenKind.isNumber_of_isInteger hkind
  have hnumber := recognizes_text_iff hspelled hvalue isMagnitude_recognizes fun _ hkind => hkind
  have hstring := isQuoted_text_iff hspelled hvalue
  simp only [← Expr.isInteger_eq_any, ← Expr.isNumber_eq_any] at hinteger hnumber
  unfold suits ofType
  split
  · simpa [Fits, accepts] using hinteger
  · simpa [Fits, accepts] using hnumber
  · simpa [Fits, accepts] using hnumber
  · simpa [Fits, accepts] using hstring
  · simp_all [Fits, accepts]

end Verdict

/-! ## The verdict of the declaration pass -/

theorem mem_valueFilings_iff {decl : VariableDecl} {filing : Filing} :
    filing ∈ decl.valueFilings ↔ ∃ value, decl.init = some value ∧
      suits decl.type value.text = false ∧
      filing = ⟨.typeMismatch decl.type value.text, decl.span⟩ := by
  rw [VariableDecl.valueFilings]
  cases decl.init with
  | none => simp
  | some value => cases suits decl.type value.text <;> simp

/-- What is filed about values is filed about the values of the globals. -/
theorem mem_declarationFilings_iff {program : Program} {filing : Filing}
    (hkind : filing.finding.kind = .typeMismatch) :
    filing ∈ program.declarationFilings ↔ ∃ decl ∈ program.globals, filing ∈ decl.valueFilings := by
  constructor
  · intro hmem
    rcases List.mem_append.mp hmem with hmem | hmem
    · obtain ⟨flagged, _, hfiling⟩ := List.mem_flatMap.mp hmem
      rw [eq_of_mem_ite hfiling] at hkind
      cases hkind
    · obtain ⟨flagged, hflagged, hfiling⟩ := List.mem_flatMap.mp hmem
      rcases List.mem_append.mp hfiling with hfiling | hfiling
      · rw [eq_of_mem_ite hfiling] at hkind
        cases hkind
      · exact ⟨flagged.1, mem_of_mem_flagRepeats hflagged, hfiling⟩
  · rintro ⟨decl, hdecl, hfiling⟩
    rw [← map_fst_flagRepeats VariableDecl.name program.globals []] at hdecl
    obtain ⟨flagged, hflagged, rfl⟩ := List.mem_map.mp hdecl
    exact List.mem_append_right _
      (List.mem_flatMap.mpr ⟨flagged, hflagged, List.mem_append_right _ hfiling⟩)

/-- No two globals are at the same place, so a mismatch tells the variable it is about. -/
theorem no_mismatch_iff_suits {source : List Char} {decl : VariableDecl} {value : Expr}
    (hitem : .global decl ∈ (parse source).program.items) (hinit : decl.init = some value)
    (id : Nat) :
    (∀ entry ∈ Filing.numbered id (parse source).program.declarationFilings,
        entry.kind = .typeMismatch → entry.span ≠ some decl.span) ↔
      suits decl.type value.text = true := by
  constructor
  · intro hnone
    by_contra hsuits
    let filing : Filing := ⟨.typeMismatch decl.type value.text, decl.span⟩
    have hvalue : filing ∈ decl.valueFilings :=
      mem_valueFilings_iff.mpr ⟨value, hinit, Bool.eq_false_iff.mpr hsuits, rfl⟩
    have hfiling : filing ∈ (parse source).program.declarationFilings :=
      (mem_declarationFilings_iff rfl).mpr
        ⟨decl, Program.mem_globals_iff.mpr hitem, hvalue⟩
    have hplaced := List.mem_map_of_mem (f := Filing.placed) hfiling
    rw [← Filing.map_numbered _ id] at hplaced
    obtain ⟨entry, hentry, hview⟩ := List.mem_map.mp hplaced
    exact hnone entry hentry (congrArg Prod.fst hview) (congrArg (·.2.2) hview)
  · intro hsuits entry hentry hkind hspan
    obtain ⟨filing, hfiling, number, rfl⟩ := Filing.exists_of_mem_numbered hentry
    obtain ⟨other, hother, hvalue⟩ := (mem_declarationFilings_iff hkind).mp hfiling
    obtain ⟨own, hown, hmismatch, rfl⟩ := mem_valueFilings_iff.mp hvalue
    obtain rfl : other = decl := Item.global.inj
      (item_eq_of_span_eq (Program.mem_globals_iff.mp hother) hitem (Option.some.inj hspan))
    obtain rfl := Option.some.inj (hown.symm.trans hinit)
    rw [hsuits] at hmismatch
    cases hmismatch

/-- The declarations of a program file a mismatch for a global variable exactly if its
initial value does not fit its type. -/
theorem no_mismatch_iff_fits {source : List Char} {decl : VariableDecl} {value : Expr}
    (hitem : .global decl ∈ (parse source).program.items) (hinit : decl.init = some value)
    (log : DiagnosticLog) :
    ∃ added, (enterDeclarations (parse source).program ({}, log)).2.entries =
        log.entries ++ added ∧
      ((∀ entry ∈ added, entry.kind = .typeMismatch → entry.span ≠ some decl.span) ↔
        Fits decl.type value (tokensWithin source value.span)) := by
  have hsite : (Item.global decl).HasSite value := by
    rw [← Item.mem_sites_iff]
    simp [Item.sites, hinit]
  obtain ⟨own, hown, hderives⟩ := (Parser.readAmong_of_parse hitem hsite (.self value)).phrase
  have hspelled : ∀ token ∈ own, token.kind.IsSpelled :=
    fun token hmem => isSpelled_of_mem_goodTokens (hown.subset hmem)
  have htokens : tokensWithin source value.span = own := tokensWithin_eq hown
    (hderives.placedOn ((goodTokens_inOrder source).sublist hown.sublist)).spans
  rw [enterDeclarations_files, DiagnosticLog.entries_fileAll, htokens,
    ← suits_iff_fits hspelled hderives]
  exact ⟨_, rfl, no_mismatch_iff_suits hitem hinit log.nextId⟩

/-- A sum of strings and numbers fits a string, as it begins and ends with a string. -/
theorem no_mismatch_iff_fits_sum :
    let source := "int n=1-1;string s=\"a\"+-2.5e3+\"b\";".toList
    ∃ decl value, .global decl ∈ (parse source).program.items ∧ decl.init = some value ∧
      decl.type = "string" ∧ Fits decl.type value (tokensWithin source value.span) ∧
      ∃ added, (enterDeclarations (parse source).program ({}, {})).2.entries = added ∧
        added.map Diagnostic.kind = [.typeMismatch] ∧
        ∀ entry ∈ added, entry.kind = .typeMismatch → entry.span ≠ some decl.span := by
  intro source
  let region : Span := { start := 19, stop := 33, line := 1, column := 20 }
  have hglobals : ("string", some region) ∈ (parse source).program.globals.map
      (fun decl => (decl.type, decl.init.map Expr.span)) := by
    decide +kernel
  obtain ⟨decl, hdecl, hview⟩ := List.mem_map.mp hglobals
  obtain ⟨htype, hspan⟩ := Prod.mk.inj hview
  obtain ⟨value, hinit, hregion⟩ := Option.map_eq_some_iff.mp hspan
  obtain ⟨item, hitem, hglobal⟩ := List.mem_filterMap.mp hdecl
  have hstrings : (tokensWithin source region).head?.any (·.kind.isString) = true ∧
      (tokensWithin source region).getLast?.any (·.kind.isString) = true := by
    decide +kernel
  have hfits : Fits decl.type value (tokensWithin source value.span) := by
    rw [hregion]
    refine .inr (.inr ⟨htype, ?_⟩)
    simpa [Option.any_eq_true] using hstrings
  cases item with
  | global own =>
      cases hglobal
      obtain ⟨added, hadded, hverdict⟩ := no_mismatch_iff_fits hitem hinit {}
      refine ⟨decl, value, hitem, hinit, htype, hfits, added, hadded, ?_, hverdict.mpr hfits⟩
      have hkinds : (enterDeclarations (parse source).program ({}, {})).2.entries.map
          Diagnostic.kind = [.typeMismatch] := by
        decide +kernel
      rwa [hadded] at hkinds
  | _ => cases hglobal

end DeclCheck
