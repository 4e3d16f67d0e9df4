import DeclCheck.Proofs.Parser.Placement
import DeclCheck.Proofs.Report.Lines
import DeclCheck.Proofs.Sink
import DeclCheck.Proofs.Token.Words

/-!
# Listings tell their entries

In a listing file the entries stand back to back, and the value of a global variable may
hold separators, angle brackets or the words between the parts of an entry.  Still no two
listings look the same.  Every entry of a program that was read takes a fixed number of
lines, none of its parts runs over a line, and nothing at its end is white space.  So the
lines tell the entries apart, and each line tells its part: types and names are words, and
a value is all that is left.  Only a variable without a value looks like one whose value is
the name `null`.
-/

namespace DeclCheck

/-! ## Words at the end of a line -/

theorem isWhiteSpace_of_isWordChar {c : Char} (hword : Lexer.isWordChar c = true) :
    Text.isWhiteSpace c = false := by
  have hrange : 48 ≤ c.toNat ∧ c.toNat ≤ 122 := by
    simp only [Lexer.isWordChar, Char.isAlphanum, Lexer.isAlpha_eq_ranges, Char.isDigit,
      Bool.or_eq_true, Bool.and_eq_true, decide_eq_true_eq, ge_iff_le,
      UInt32.le_iff_toNat_le] at hword
    rcases hword with ((hupper | hlower) | hdigit) | rfl
    · have hletter : 65 ≤ c.toNat ∧ c.toNat ≤ 90 := hupper
      omega
    · have hletter : 97 ≤ c.toNat ∧ c.toNat ≤ 122 := hlower
      omega
    · have hnumber : 48 ≤ c.toNat ∧ c.toNat ≤ 57 := hdigit
      omega
    · decide
  rw [Bool.eq_false_iff]
  intro hspace
  simp only [Text.isWhiteSpace, Text.whiteSpaceRanges, Text.inRanges, Bool.and_eq_true,
    Bool.or_eq_true, decide_eq_true_eq] at hspace
  omega

/-- What ends with no white space loses nothing. -/
theorem trimEnd_append_of_not_whiteSpace (text : List Char) {c : Char}
    (hc : Text.isWhiteSpace c = false) : Text.trimEnd (text ++ [c]) = text ++ [c] := by
  rw [Text.trimEnd, Text.dropEnding, List.reverse_append, List.reverse_singleton,
    List.singleton_append, List.dropWhile_cons_of_neg (by simp [hc]), List.reverse_cons,
    List.reverse_reverse]

namespace Lexer

theorem IsWord.newline_not_mem {text : List Char} (hword : IsWord text) : '\n' ∉ text :=
  not_mem_of_all (by decide) hword.all

theorem IsWord.trimEnd_append {word : List Char} (hword : IsWord word) (text : List Char) :
    Text.trimEnd (text ++ word) = text ++ word := by
  have hlast : Text.isWhiteSpace (word.getLast hword.ne_nil) = false :=
    isWhiteSpace_of_isWordChar (hword.all _ (List.getLast_mem hword.ne_nil))
  rw [← List.dropLast_append_getLast hword.ne_nil, ← List.append_assoc]
  exact trimEnd_append_of_not_whiteSpace _ hlast

end Lexer

/-! ## Lines of a listing -/

namespace ReportFile

/-- A text that stands in a listing as it is, on the given lines. -/
structure StandsOn (text : String) (lines : List String) : Prop where
  oneLine : ∀ line ∈ lines, OneLine line
  trimmed : Text.trimEnd text.toList = text.toList
  text_eq : text ++ "\n" = String.join (lines.map (· ++ "\n"))

/-- Entries of the same number of lines are told from all their lines. -/
theorem map_eq_of_flatMap_eq {α β : Type} {lines : α → List β} {count : Nat}
    {first : List α} (hfirst : ∀ entry ∈ first, (lines entry).length = count + 1) :
    ∀ {second : List α}, (∀ entry ∈ second, (lines entry).length = count + 1) →
      first.flatMap lines = second.flatMap lines → first.map lines = second.map lines := by
  induction first with
  | nil =>
      intro second hsecond hlines
      cases second with
      | nil => rfl
      | cons other others =>
          have hlength := congrArg List.length hlines
          rw [List.flatMap_nil, List.flatMap_cons, List.length_append,
            hsecond other List.mem_cons_self, List.length_nil] at hlength
          omega
  | cons entry entries ih =>
      intro second hsecond hlines
      have hentry := hfirst entry List.mem_cons_self
      cases second with
      | nil =>
          have hlength := congrArg List.length hlines
          rw [List.flatMap_nil, List.flatMap_cons, List.length_append, hentry,
            List.length_nil] at hlength
          omega
      | cons other others =>
          rw [List.forall_mem_cons] at hfirst hsecond
          rw [List.flatMap_cons, List.flatMap_cons] at hlines
          obtain ⟨hhead, htail⟩ :=
            List.append_inj hlines (hfirst.1.trans hsecond.1.symm)
          rw [List.map_cons, List.map_cons, hhead, ih hfirst.2 hsecond.2 htail]

section Entries

variable {α : Type} {text : α → String} {lines : α → List String}

/-- The lines of a listing are those of its entries, with a separator after each entry. -/
theorem toList_listingLines {entries : List α}
    (hentries : ∀ entry ∈ entries, StandsOn (text entry) (lines entry)) :
    (String.join (listingLines (entries.map text))).toList =
      ((entries.flatMap fun entry => lines entry ++ [separator]).map String.toList).flatMap
        (· ++ ['\n']) := by
  rw [String.toList_join, listingLines, List.flatMap_map, List.flatMap_assoc, List.map_flatMap,
    List.flatMap_assoc]
  apply List.flatMap_congr
  intro entry hmem
  obtain ⟨_, htrimmed, htext⟩ := hentries entry hmem
  have hlines : (text entry).toList ++ ['\n'] =
      ((lines entry).map String.toList).flatMap (· ++ ['\n']) := by
    have hchars := congrArg String.toList htext
    rw [String.toList_append, String.toList_join, List.flatMap_map] at hchars
    simp only [String.toList_append] at hchars
    rw [List.flatMap_map]
    exact hchars
  rw [List.map_append, List.flatMap_append, ← hlines, htrimmed, String.ofList_toList]
  simp only [List.flatMap_cons, List.flatMap_nil, String.toList_append, List.map_cons,
    List.map_nil, List.append_nil]
  rfl

/-- Entries that take the same number of lines each are told from their listing, as far as
their lines tell them. -/
theorem map_lines_eq_of_listing_eq {count : Nat} {first second : List α}
    (hfirst : ∀ entry ∈ first, StandsOn (text entry) (lines entry))
    (hsecond : ∀ entry ∈ second, StandsOn (text entry) (lines entry))
    (hcount : ∀ entry, (lines entry).length = count)
    (hlisting : String.join (listingLines (first.map text)) =
      String.join (listingLines (second.map text))) :
    first.map lines = second.map lines := by
  have honeLine : ∀ entries : List α,
      (∀ entry ∈ entries, StandsOn (text entry) (lines entry)) →
      ∀ line ∈ (entries.flatMap fun entry => lines entry ++ [separator]).map String.toList,
        '\n' ∉ line := by
    intro entries hentries
    rw [List.forall_mem_map]
    intro line hmem
    obtain ⟨entry, hentry, hline⟩ := List.mem_flatMap.mp hmem
    rcases List.mem_append.mp hline with hline | hline
    · exact (hentries entry hentry).oneLine line hline
    · rw [List.mem_singleton.mp hline]
      decide
  have hchars := congrArg String.toList hlisting
  rw [toList_listingLines hfirst, toList_listingLines hsecond] at hchars
  have hsplit := congrArg (List.splitOn '\n') hchars
  rw [splitOn_lines (honeLine first hfirst), splitOn_lines (honeLine second hsecond)] at hsplit
  have hall := List.map_injective_iff.mpr (fun _ _ => String.toList_inj.mp)
    (List.append_cancel_right hsplit)
  have hlength : ∀ entry, (lines entry ++ [separator]).length = count + 1 := by
    intro entry
    rw [List.length_append, hcount, List.length_singleton]
  have hseparated := map_eq_of_flatMap_eq (fun entry _ => hlength entry)
    (fun entry _ => hlength entry) hall
  have hcancel : Function.Injective fun own : List String => own ++ [separator] :=
    fun _ _ => List.append_cancel_right
  apply List.map_injective_iff.mpr hcancel
  rw [List.map_map, List.map_map]
  exact hseparated

end Entries

/-- Where equal keys mean equal views, lists with the same keys have the same views. -/
theorem map_eq_map_of_keys {α κ ν : Type} {key : α → κ} {view : α → ν} {first : List α} :
    ∀ {second : List α}, (∀ entry ∈ first, ∀ other ∈ second, key entry = key other →
        view entry = view other) →
      first.map key = second.map key → first.map view = second.map view := by
  induction first with
  | nil =>
      intro second _ hkeys
      rw [List.map_eq_nil_iff.mp hkeys.symm]
  | cons entry entries ih =>
      intro second hviews hkeys
      cases second with
      | nil => cases hkeys
      | cons other others =>
          rw [List.map_cons, List.map_cons, List.cons.injEq] at hkeys
          rw [List.map_cons, List.map_cons,
            hviews entry List.mem_cons_self other List.mem_cons_self hkeys.1,
            ih (fun own hown another hanother => hviews own (List.mem_cons_of_mem _ hown)
              another (List.mem_cons_of_mem _ hanother)) hkeys.2]

end ReportFile

/-! ## Functions -/

/-- Texts that never look like the default are told by what is shown for them. -/
theorem eq_of_getD_eq {default : String} {first second : Option String}
    (hfirst : first ≠ some default) (hsecond : second ≠ some default)
    (hshown : first.getD default = second.getD default) : first = second := by
  cases first with
  | none =>
      cases second with
      | none => rfl
      | some text => exact absurd (congrArg some hshown.symm) hsecond
  | some text =>
      cases second with
      | none => exact absurd (congrArg some hshown) hfirst
      | some other => exact congrArg some hshown

namespace FunctionEntry

open ReportFile

/-- The four lines of a function in a listing. -/
def lines (entry : FunctionEntry) : List String :=
  ["Function: " ++ entry.name, "Kind: " ++ entry.pattern.shown,
    "Return type: " ++ entry.returnType, "Parameters: " ++ entry.params.getD "none"]

theorem length_lines (entry : FunctionEntry) : entry.lines.length = 4 := rfl

/-- The parts of the entry are what a source can bring about: words, and parameters with a
word after the last blank. -/
structure IsWorded (entry : FunctionEntry) : Prop where
  name : Lexer.IsWord entry.name.toList
  returnType : Lexer.IsWord entry.returnType.toList
  params : ∀ text ∈ entry.params, OneLine text ∧
    ∃ front word, text.toList = front ++ ' ' :: word ∧ Lexer.IsWord word

theorem text_eq_append (entry : FunctionEntry) :
    entry.text = "Function: " ++ entry.name ++ "\nKind: " ++ entry.pattern.shown ++
      "\nReturn type: " ++ entry.returnType ++ "\nParameters: " ++ entry.params.getD "none" := by
  change "Function: " ++ entry.name ++ "\nKind: " ++ entry.pattern.shown ++ "\n" ++
    ("Return type: " ++ entry.returnType ++ "\nParameters: " ++ entry.params.getD "none") = _
  have hbreak : "\nReturn type: " = "\n" ++ "Return type: " := rfl
  simp only [hbreak, String.append_assoc]

/-- Whatever the parameters are, they end with a word. -/
theorem IsWorded.params_ending {entry : FunctionEntry} (hentry : entry.IsWorded) :
    ∃ front word, (entry.params.getD "none").toList = front ++ word ∧ Lexer.IsWord word := by
  cases hparams : entry.params with
  | none => exact ⟨[], "none".toList, rfl, by decide, List.all_eq_true.mp (by decide)⟩
  | some text =>
      obtain ⟨_, front, word, htext, hword⟩ := hentry.params text hparams
      exact ⟨front ++ [' '], word, by rw [List.append_assoc]; exact htext, hword⟩

theorem IsWorded.standsOn {entry : FunctionEntry} (hentry : entry.IsWorded) :
    StandsOn entry.text entry.lines where
  oneLine := by
    have hpattern : OneLine entry.pattern.shown := by cases entry.pattern <;> decide
    have hparams : OneLine (entry.params.getD "none") := by
      cases hsome : entry.params with
      | none => decide
      | some text => exact (hentry.params text hsome).1
    simp only [lines, List.forall_mem_cons, oneLine_append]
    exact ⟨⟨by decide, hentry.name.newline_not_mem⟩, ⟨by decide, hpattern⟩,
      ⟨by decide, hentry.returnType.newline_not_mem⟩, ⟨by decide, hparams⟩,
      List.forall_mem_nil _⟩
  trimmed := by
    obtain ⟨front, word, hparams, hword⟩ := hentry.params_ending
    rw [text_eq_append, String.toList_append, hparams, ← List.append_assoc]
    exact hword.trimEnd_append _
  text_eq := by
    have hkind : "\nKind: " = "\n" ++ "Kind: " := rfl
    have htype : "\nReturn type: " = "\n" ++ "Return type: " := rfl
    have hparams : "\nParameters: " = "\n" ++ "Parameters: " := rfl
    rw [text_eq_append, hkind, htype, hparams]
    simp only [lines, List.map_cons, List.map_nil, String.join_cons, String.join_nil,
      String.append_assoc, String.append_empty]

/-- No list of parameters is written like the absence of one, which has no blank. -/
theorem IsWorded.params_ne_none {entry : FunctionEntry} (hentry : entry.IsWorded) :
    entry.params ≠ some "none" := by
  intro hparams
  obtain ⟨_, front, word, htext, _⟩ := hentry.params _ hparams
  have hblank : ' ' ∈ "none".toList := by simp [htext]
  exact absurd hblank (by decide)

theorem shown_inj {first second : CallPattern} (hshown : first.shown = second.shown) :
    first = second := by
  cases first <;> cases second
  · rfl
  · exact absurd hshown (by decide)
  · exact absurd hshown (by decide)
  · rfl

/-- The lines tell every part of a function. -/
theorem IsWorded.eq_of_lines_eq {first second : FunctionEntry} (hfirst : first.IsWorded)
    (hsecond : second.IsWorded) (hlines : first.lines = second.lines) : first = second := by
  simp only [lines, List.cons.injEq, String.append_right_inj, and_true] at hlines
  obtain ⟨hname, hpattern, htype, hparams⟩ := hlines
  calc
    first = ⟨first.name, first.returnType, first.params, first.pattern⟩ := rfl
    _ = ⟨second.name, second.returnType, second.params, second.pattern⟩ := by
      rw [hname, htype, shown_inj hpattern,
        eq_of_getD_eq hfirst.params_ne_none hsecond.params_ne_none hparams]

end FunctionEntry

/-! ## Global variables -/

namespace GlobalEntry

open ReportFile

/-- The entry with the value it is listed with: the name `null` stands for no value. -/
def withShownValue (entry : GlobalEntry) : GlobalEntry :=
  { entry with value := some (entry.value.getD "null") }

/-- The parts of the entry are what a source can bring about: words, and a value of one
line. -/
structure IsWorded (entry : GlobalEntry) : Prop where
  type : Lexer.IsWord entry.type.toList
  name : Lexer.IsWord entry.name.toList
  value : ∀ text ∈ entry.value, OneLine text

theorem text_eq_append (entry : GlobalEntry) :
    entry.text = "<Type: " ++ (entry.type ++ (", Name: " ++ (entry.name ++
      (", Value: " ++ (entry.value.getD "null" ++ ">"))))) := by
  change "<Type: " ++ entry.type ++ ", Name: " ++ entry.name ++ ", Value: " ++
    entry.value.getD "null" ++ ">" = _
  simp only [String.append_assoc]

theorem IsWorded.standsOn {entry : GlobalEntry} (hentry : entry.IsWorded) :
    StandsOn entry.text [entry.text] where
  oneLine := by
    have hvalue : OneLine (entry.value.getD "null") := by
      cases hsome : entry.value with
      | none => decide
      | some text => exact hentry.value text hsome
    rw [List.forall_mem_singleton, text_eq_append]
    simp only [oneLine_append]
    exact ⟨by decide, hentry.type.newline_not_mem, by decide, hentry.name.newline_not_mem,
      by decide, hvalue, by decide⟩
  trimmed := by
    rw [text_eq_append]
    simp only [← String.append_assoc]
    rw [String.toList_append]
    exact trimEnd_append_of_not_whiteSpace _ (by decide)
  text_eq := by
    simp only [List.map_cons, List.map_nil, String.join_cons, String.join_nil,
      String.append_empty]

theorem stops_comma {separator : String} (hcomma : separator.toList.head? = some ',')
    (rest : String) : Lexer.Stops Lexer.isWordChar (separator ++ rest).toList := by
  rw [String.toList_append, Lexer.Stops, List.head?_append, hcomma]
  rintro c ⟨⟩
  decide

/-- The type ends at the first comma and the name at the next one.  The value is all that
is left, whatever it holds. -/
theorem IsWorded.shown_eq_of_text_eq {first second : GlobalEntry} (hfirst : first.IsWorded)
    (hsecond : second.IsWorded) (htext : first.text = second.text) :
    first.withShownValue = second.withShownValue := by
  rw [text_eq_append, text_eq_append, String.append_right_inj] at htext
  have hchars := congrArg String.toList htext
  rw [String.toList_append, String.toList_append (s := second.type)] at hchars
  obtain ⟨htype, hnames⟩ := hfirst.type.append_inj hsecond.type (stops_comma (by decide) _)
    (stops_comma (by decide) _) hchars
  have hnameTexts := congrArg String.toList
    ((String.append_right_inj _).mp (String.toList_inj.mp hnames))
  rw [String.toList_append, String.toList_append (s := second.name)] at hnameTexts
  obtain ⟨hname, hvalues⟩ := hfirst.name.append_inj hsecond.name (stops_comma (by decide) _)
    (stops_comma (by decide) _) hnameTexts
  have hvalue : first.value.getD "null" = second.value.getD "null" :=
    (String.append_left_inj _).mp ((String.append_right_inj _).mp (String.toList_inj.mp hvalues))
  rw [withShownValue, withShownValue, String.toList_inj.mp htype, String.toList_inj.mp hname,
    hvalue]

end GlobalEntry

/-! ## Programs that were read -/

namespace Parser

/-- Every item of a list was read by a run of its own, among the tokens. -/
theorem exists_itemRun_of_mem {read : Item} (bound : Nat) :
    ∀ {state : ParserState}, read ∈ (itemsWithin bound state).1 →
      ∃ before after, before.tokens <:+ state.tokens ∧ ItemRun before after read := by
  induction bound with
  | zero =>
      intro state hmem
      cases hmem
  | succ bound ih =>
      intro state hmem
      rw [itemsWithin] at hmem
      split at hmem
      · cases hmem
      · rcases List.mem_append.mp hmem with hmem | hmem
        · cases hrun : item state with
          | ok own after =>
              rw [itemStep_of_ok hrun] at hmem
              rw [List.mem_singleton.mp hmem]
              exact ⟨state, after, List.suffix_refl _, item_run hrun⟩
          | error error after =>
              rw [itemStep, recover, hrun] at hmem
              cases hmem
        · obtain ⟨before, after, hleft, hread⟩ := ih hmem
          exact ⟨before, after, hleft.trans (shrinks_recoverClosed.itemStep state), hread⟩

theorem exists_itemRun_of_parse {source : List Char} {read : Item}
    (hmem : read ∈ (parse source).program.items) :
    ∃ before after, before.tokens <:+ goodTokens (lex source) ∧ ItemRun before after read :=
  exists_itemRun_of_mem _ hmem

end Parser

namespace Grammar

/-- How a parameter is listed. -/
def parameterText (param : Parameter) : String :=
  param.type ++ " " ++ param.name

theorem DerivesParameter.text_ending {tokens : List Token} {param : Parameter}
    (hparam : DerivesParameter tokens param)
    (hspelled : ∀ token ∈ tokens, token.kind.IsSpelled) :
    OneLine (parameterText param) ∧ ∃ front word,
      (parameterText param).toList = front ++ ' ' :: word ∧ Lexer.IsWord word := by
  cases hparam with
  | intro start stop type name =>
      have hname : Lexer.IsWord name.toList := Lexer.isWord_of_identifier
        (hspelled ⟨.identifier name, stop⟩ (List.mem_cons_of_mem _ List.mem_cons_self))
      have hline : OneLine (parameterText ⟨type.spelling, name, start.cover stop⟩) := by
        simp only [parameterText, oneLine_append]
        exact ⟨⟨type.oneLine_spelling, by decide⟩, hname.newline_not_mem⟩
      refine ⟨hline, type.spelling.toList, name.toList, ?_, hname⟩
      rw [parameterText, String.toList_append, String.toList_append, List.append_assoc]
      rfl

theorem DerivesParameters.ne_nil {tokens : List Token} {params : List Parameter}
    (hparams : DerivesParameters tokens params) : params ≠ [] := by
  cases hparams <;> exact List.cons_ne_nil _ _

/-- A list of parameters fits on a line, and ends with the name of the last one. -/
theorem DerivesParameters.text_ending {tokens : List Token} {params : List Parameter}
    (hparams : DerivesParameters tokens params) :
    (∀ token ∈ tokens, token.kind.IsSpelled) →
    OneLine (String.intercalate ", " (params.map parameterText)) ∧ ∃ front word,
      (String.intercalate ", " (params.map parameterText)).toList = front ++ ' ' :: word ∧
        Lexer.IsWord word := by
  induction hparams with
  | last hparam =>
      intro hspelled
      rw [List.map_singleton, String.intercalate_singleton]
      exact hparam.text_ending hspelled
  | @more comma tokens rest param params hparam hrest ih =>
      intro hspelled
      rw [List.forall_mem_append, List.forall_mem_cons] at hspelled
      obtain ⟨hline, _⟩ := hparam.text_ending hspelled.1
      obtain ⟨hlines, front, word, htext, hword⟩ := ih hspelled.2.2
      have hmore : params.map parameterText ≠ [] := List.map_eq_nil_iff.not.mpr hrest.ne_nil
      rw [List.map_cons, String.intercalate_cons_of_ne_nil hmore]
      constructor
      · simp only [oneLine_append]
        exact ⟨⟨hline, by decide⟩, hlines⟩
      · refine ⟨(parameterText param ++ ", ").toList ++ front, word, ?_, hword⟩
        rw [String.toList_append, htext, List.append_assoc]

end Grammar

theorem isWorded_functionEntry {source : List Char} {entry : FunctionEntry}
    (hmem : entry ∈ (parse source).program.functionEntries) : entry.IsWorded := by
  obtain ⟨function, hfunction, rfl⟩ := List.mem_map.mp hmem
  obtain ⟨before, after, hleft, hread⟩ :=
    Parser.exists_itemRun_of_parse (Program.mem_functions_iff.mp hfunction)
  cases hread with
  | @function start name opening closing type text tokens params body middle hconsumed
      hparams hbody =>
      have hspelled : ∀ token ∈ ⟨.type type, start⟩ :: ⟨.identifier text, name⟩ ::
          ⟨.symbol .openParen, opening⟩ :: (tokens ++ [⟨.symbol .closeParen, closing⟩]),
          token.kind.IsSpelled := by
        intro token htoken
        apply isSpelled_of_mem_goodTokens (hleft.subset _)
        rw [hconsumed.tokens_eq]
        exact List.mem_append_left _ htoken
      simp only [List.forall_mem_cons, List.forall_mem_append] at hspelled
      obtain ⟨_, hname, _, htokens, _⟩ := hspelled
      constructor
      case name => exact Lexer.isWord_of_identifier hname
      case returnType => exact Lexer.isWord_typeName type
      case params =>
        intro shown hshown
        cases hparams with
        | absent => cases hshown
        | present hderives =>
            cases hshown
            exact hderives.text_ending htokens

theorem isWorded_globalEntry {source : List Char} {entry : GlobalEntry}
    (hmem : entry ∈ (parse source).program.globalEntries) : entry.IsWorded := by
  obtain ⟨decl, hdecl, rfl⟩ := List.mem_map.mp hmem
  have hread := Parser.variableRead_of_mem (fun _ => Parser.itemRead_of_parse) hdecl
  have hspelled : ∀ token ∈ goodTokens (lex source), token.kind.IsSpelled :=
    fun _ => isSpelled_of_mem_goodTokens
  constructor
  case type =>
    obtain ⟨type, htype⟩ := hread.type
    rw [GlobalEntry.ofVariable, htype]
    exact Lexer.isWord_typeName type
  case name => exact Lexer.isWord_of_identifier (List.forall_mem_map.mpr hspelled _ hread.name)
  case value =>
    intro text htext
    obtain ⟨expr, hinit, rfl⟩ := Option.map_eq_some_iff.mp htext
    exact (hread.init expr (Option.mem_toList.mpr hinit)).oneLine_text hspelled

section Sources

variable {source other : List Char}

theorem functionEntries_eq_of_listing_eq
    (hlisting : String.join (ReportFile.functionLines (parse source).program) =
      String.join (ReportFile.functionLines (parse other).program)) :
    (parse source).program.functionEntries = (parse other).program.functionEntries := by
  have hlines := ReportFile.map_lines_eq_of_listing_eq
    (fun entry hmem => (isWorded_functionEntry hmem).standsOn)
    (fun entry hmem => (isWorded_functionEntry hmem).standsOn) FunctionEntry.length_lines
    hlisting
  have hentries : (parse source).program.functionEntries.map id =
      (parse other).program.functionEntries.map id :=
    ReportFile.map_eq_map_of_keys (fun entry hentry compared hcompared =>
      (isWorded_functionEntry hentry).eq_of_lines_eq (isWorded_functionEntry hcompared)) hlines
  rwa [List.map_id, List.map_id] at hentries

theorem globalEntries_eq_of_listing_eq
    (hlisting : String.join (ReportFile.globalLines (parse source).program) =
      String.join (ReportFile.globalLines (parse other).program)) :
    (parse source).program.globalEntries.map GlobalEntry.withShownValue =
      (parse other).program.globalEntries.map GlobalEntry.withShownValue := by
  have hlines := ReportFile.map_lines_eq_of_listing_eq
    (fun entry hmem => (isWorded_globalEntry hmem).standsOn)
    (fun entry hmem => (isWorded_globalEntry hmem).standsOn)
    (fun entry => List.length_singleton) hlisting
  refine ReportFile.map_eq_map_of_keys (fun entry hentry compared hcompared hline => ?_) hlines
  exact (isWorded_globalEntry hentry).shown_eq_of_text_eq (isWorded_globalEntry hcompared)
    (List.cons.inj hline).1

end Sources

/-- Two sources have the same bytes in their listings of functions exactly if the same
functions are listed, and the same bytes in their listings of global variables exactly if
the same variables are listed with the same values, where the name `null` counts as no
value. -/
theorem listings_unambiguous (source other : List Char) :
    let program := (parse source).program
    let compared := (parse other).program
    (textBytes (String.join (ReportFile.functionLines program)) =
        textBytes (String.join (ReportFile.functionLines compared)) ↔
      program.functionEntries = compared.functionEntries) ∧
    (textBytes (String.join (ReportFile.globalLines program)) =
        textBytes (String.join (ReportFile.globalLines compared)) ↔
      program.globalEntries.map GlobalEntry.withShownValue =
        compared.globalEntries.map GlobalEntry.withShownValue) := by
  intro program compared
  rw [textBytes_inj, textBytes_inj]
  constructor
  · refine ⟨functionEntries_eq_of_listing_eq, fun hentries => ?_⟩
    rw [ReportFile.functionLines, ReportFile.functionLines, hentries]
  · refine ⟨globalEntries_eq_of_listing_eq, fun hentries => ?_⟩
    -- an entry is written like the one that has its shown value
    have htexts := congrArg (List.map GlobalEntry.text) hentries
    rw [List.map_map, List.map_map] at htexts
    exact congrArg (fun texts => String.join (ReportFile.listingLines texts)) htexts

/-- A variable without a value is listed like one with the value `null`, and a value that
looks like two entries stays one. -/
example :
    let plain := (parse "int x;".toList).program
    let named := (parse "int x=null;".toList).program
    let quoted := (parse "string x=\">\"+\"<Type: int, Name: y, Value: 1\";".toList).program
    ReportFile.globalLines plain = ReportFile.globalLines named ∧
      plain.globalEntries ≠ named.globalEntries ∧
      ReportFile.globalLines quoted =
        ["<Type: string, Name: x, Value: \">\"+\"<Type: int, Name: y, Value: 1\">\n",
          "----------------------\n"] := by
  decide +kernel

end DeclCheck
