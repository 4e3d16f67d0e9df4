import DeclCheck.Proofs.Token.Pattern
import DeclCheck.Proofs.Token.Tiling

/-!
# The scanner takes the longest match

Every declared pattern comes with what its texts are read as.  A step of the scanner
takes the longest text at the head of the source that matches one of the patterns, and
reads it as that pattern says; a reserved word is none of the names.  Where it reads
nothing, no pattern matches, or a comment is opened and never closed.
-/

namespace DeclCheck.Lexer

/-- A declared pattern, and what a text that matches it is read as. -/
structure Rule where
  pattern : Pattern
  reading : List Char → Reading

namespace Rule

/-- The rule matches the text. -/
def Matches (rule : Rule) (text : List Char) : Prop :=
  text ∈ rule.pattern.language

def layout (pattern : Pattern) : Rule :=
  ⟨pattern, fun _ => .layout⟩

/-- One spelling, and the token it stands for. -/
def fixed (chars : List Char) (kind : TokenKind) : Rule :=
  ⟨.word chars, fun _ => .token kind⟩

/-- Tokens that carry their text. -/
def carrying (pattern : Pattern) (kind : String → TokenKind) : Rule :=
  ⟨pattern, fun text => .token (kind (String.ofList text))⟩

def layouts : List Rule :=
  [layout .blanks, layout .lineComment, layout .blockComment]

/-- The words that are no names. -/
def reserved : List Rule :=
  TypeName.all.map (fun name => fixed name.chars (.type name)) ++
    Keyword.all.map (fun word => fixed word.chars (.keyword word))

def name : Rule :=
  carrying .identifier .identifier

def literals : List Rule :=
  [carrying .integer .integer, carrying .float .float, carrying .string .string]

def symbols : List Rule :=
  Symbol.all.map fun mark => fixed mark.chars (.symbol mark)

/-- All declared patterns. -/
def all : List Rule :=
  layouts ++ reserved ++ name :: literals ++ symbols

end Rule

/-- The run is the longest text at the head of the source that a rule matches.  It is
read as each rule that matches it says, except that a reserved word is not read as a
name. -/
structure LongestMatch (text run : List Char) (reading : Reading) : Prop where
  ne_nil : run ≠ []
  starts : run <+: text
  longest : ∀ rule ∈ Rule.all, ∀ other, other <+: text → rule.Matches other →
    other.length ≤ run.length
  matched : ∃ rule ∈ Rule.all, rule.Matches run ∧ rule.reading run = reading
  read : ∀ rule ∈ Rule.all, rule.Matches run → rule.reading run = reading ∨
    rule = Rule.name ∧ ∃ word ∈ Rule.reserved, word.Matches run ∧ word.reading run = reading

/-- No rule matches a text at the head of the source. -/
def NoMatch (text : List Char) : Prop :=
  ∀ rule ∈ Rule.all, ∀ run, run ≠ [] → run <+: text → ¬ rule.Matches run

/-! ## What the rules match -/

/-- What a whole text spells, wherever it stands. -/
inductive Spells : Reading → List Char → Prop
  | layout {text : List Char} (hlayout : IsLayout text []) : Spells .layout text
  | token {kind : TokenKind} {text : List Char} (hlexeme : Lexeme kind text) :
      Spells (.token kind) text

variable {text run rest : List Char} {reading : Reading} {rule : Rule}

theorem Spells.ne_nil (hspells : Spells reading text) : text ≠ [] := by
  cases hspells with
  | layout hlayout => exact hlayout.ne_nil
  | token hlexeme => exact hlexeme.ne_nil

theorem stops_nil (goesOn : Char → Bool) : Stops goesOn [] := by
  rintro c ⟨⟩

/-- Layout is layout wherever the text ends with it. -/
theorem IsLayout.alone (hlayout : IsLayout text rest) : IsLayout text [] := by
  cases hlayout with
  | blanks hne hrun => exact .blanks hne hrun (stops_nil _)
  | lineComment hbody => exact .lineComment hbody (stops_nil _)
  | blockComment hbody => exact .blockComment hbody

theorem isLayout_nil_iff :
    IsLayout text [] ↔ text ∈ Pattern.blanks.language ∨
      text ∈ Pattern.lineComment.language ∨ text ∈ Pattern.blockComment.language := by
  rw [Pattern.mem_blanks, Pattern.mem_lineComment, Pattern.mem_blockComment]
  constructor
  · intro hlayout
    cases hlayout with
    | blanks hne hrun => exact .inl ⟨hne, hrun⟩
    | lineComment hbody => exact .inr (.inl ⟨_, rfl, hbody⟩)
    | blockComment hbody => exact .inr (.inr ⟨_, rfl, hbody⟩)
  · rintro (⟨hne, hrun⟩ | ⟨body, rfl, hbody⟩ | ⟨body, rfl, hbody⟩)
    · exact .blanks hne hrun (stops_nil _)
    · exact .lineComment hbody (stops_nil _)
    · exact .blockComment hbody

theorem mem_typeNames (name : TypeName) : name ∈ TypeName.all := by
  cases name <;> decide

theorem mem_keywords (word : Keyword) : word ∈ Keyword.all := by
  cases word <;> decide

theorem mem_symbols (mark : Symbol) : mark ∈ Symbol.all := by
  cases mark <;> decide

theorem fixed_type_mem (name : TypeName) : Rule.fixed name.chars (.type name) ∈ Rule.reserved :=
  List.mem_append_left _ (List.mem_map_of_mem (mem_typeNames name))

theorem fixed_keyword_mem (word : Keyword) :
    Rule.fixed word.chars (.keyword word) ∈ Rule.reserved :=
  List.mem_append_right _ (List.mem_map_of_mem (mem_keywords word))

/-- A word is read as the reserved word that it is, and otherwise as a name. -/
theorem ofWord_reserved_or_name (word : List Char) :
    (∃ rule ∈ Rule.reserved, rule.Matches word ∧
        rule.reading word = .token (.ofWord word)) ∨
      Rule.name.reading word = .token (.ofWord word) := by
  rw [TokenKind.ofWord]
  split
  · rename_i name hname
    have hchars := List.find?_some hname
    exact .inl ⟨_, fixed_type_mem name, (eq_of_beq hchars).symm, rfl⟩
  · split
    · rename_i reserved hreserved
      have hchars := List.find?_some hreserved
      exact .inl ⟨_, fixed_keyword_mem reserved, (eq_of_beq hchars).symm, rfl⟩
    · exact .inr rfl

theorem lexeme_of_ofWord {kind : TokenKind} (hkind : .ofWord text = kind)
    (hstart : text.head?.map isWordStart = some true) (hall : text.all isWordChar = true) :
    Lexeme kind text := by
  obtain ⟨c, hhead, hc⟩ := Option.map_eq_some_iff.mp hstart
  obtain ⟨rest, rfl⟩ := List.head?_eq_some_iff.mp hhead
  have hrest := List.all_eq_true.mp hall
  rw [← hkind]
  exact .word hc fun d hd => hrest d (List.mem_cons_of_mem _ hd)

/-- The spelling of a reserved word is a word that is read as it. -/
theorem lexeme_of_mem_reserved (hrule : rule ∈ Rule.reserved) (hmatches : rule.Matches text) :
    ∃ kind, Lexeme kind text ∧ rule.reading text = .token kind := by
  rcases List.mem_append.mp hrule with hmem | hmem
  · obtain ⟨name, _, rfl⟩ := List.mem_map.mp hmem
    obtain rfl : text = name.chars := hmatches
    refine ⟨.type name, ?_, rfl⟩
    cases name <;> exact lexeme_of_ofWord rfl rfl rfl
  · obtain ⟨word, _, rfl⟩ := List.mem_map.mp hmem
    obtain rfl : text = word.chars := hmatches
    refine ⟨.keyword word, ?_, rfl⟩
    cases word <;> exact lexeme_of_ofWord rfl rfl rfl

/-- What a rule matches spells what the rule says, unless the rule is for names and the
word is reserved. -/
theorem spells_of_matches (hrule : rule ∈ Rule.all) (hmatches : rule.Matches text) :
    ∃ reading, Spells reading text ∧ (rule.reading text = reading ∨
      rule = Rule.name ∧
        ∃ word ∈ Rule.reserved, word.Matches text ∧ word.reading text = reading) := by
  simp only [Rule.all, Rule.layouts, Rule.literals, List.mem_append, List.mem_cons,
    List.not_mem_nil, or_false] at hrule
  rcases hrule with (((rfl | rfl | rfl) | hreserved) | (rfl | rfl | rfl | rfl)) | hsymbol
  · exact ⟨_, .layout (isLayout_nil_iff.mpr (.inl hmatches)), .inl rfl⟩
  · exact ⟨_, .layout (isLayout_nil_iff.mpr (.inr (.inl hmatches))), .inl rfl⟩
  · exact ⟨_, .layout (isLayout_nil_iff.mpr (.inr (.inr hmatches))), .inl rfl⟩
  · obtain ⟨kind, hlexeme, hreading⟩ := lexeme_of_mem_reserved hreserved hmatches
    exact ⟨_, .token hlexeme, .inl hreading⟩
  · obtain ⟨c, rest, rfl, hstart, hrest⟩ := Pattern.mem_identifier.mp hmatches
    refine ⟨_, .token (.word hstart hrest), ?_⟩
    rcases ofWord_reserved_or_name (c :: rest) with hreserved | hname
    · exact .inr ⟨rfl, hreserved⟩
    · exact .inl hname
  · exact ⟨_, .token (.integer (Pattern.mem_integer.mp hmatches)), .inl rfl⟩
  · obtain ⟨digits, fraction, rfl, hdigits, hfraction⟩ := Pattern.mem_float.mp hmatches
    exact ⟨_, .token (.float hdigits hfraction), .inl rfl⟩
  · obtain ⟨run, rfl, hrun⟩ := Pattern.mem_string.mp hmatches
    exact ⟨_, .token (.string hrun), .inl rfl⟩
  · obtain ⟨mark, _, rfl⟩ := List.mem_map.mp hsymbol
    obtain rfl : text = mark.chars := hmatches
    exact ⟨_, .token (.symbol mark), .inl rfl⟩

/-- What a text spells, a rule says. -/
theorem Spells.exists_rule (hspells : Spells reading text) :
    ∃ rule ∈ Rule.all, rule.Matches text ∧ rule.reading text = reading := by
  cases hspells with
  | layout hlayout =>
      rcases isLayout_nil_iff.mp hlayout with hmem | hmem | hmem
      · exact ⟨.layout .blanks, by simp [Rule.all, Rule.layouts], hmem, rfl⟩
      · exact ⟨.layout .lineComment, by simp [Rule.all, Rule.layouts], hmem, rfl⟩
      · exact ⟨.layout .blockComment, by simp [Rule.all, Rule.layouts], hmem, rfl⟩
  | token hlexeme =>
      cases hlexeme with
      | @word c rest hstart hrest =>
          rcases ofWord_reserved_or_name (c :: rest) with ⟨rule, hrule, hword⟩ | hname
          · exact ⟨rule, by simp [Rule.all, hrule], hword⟩
          · exact ⟨.name, by simp [Rule.all],
              Pattern.mem_identifier.mpr ⟨c, rest, rfl, hstart, hrest⟩, hname⟩
      | integer hdigits =>
          exact ⟨.carrying .integer .integer, by simp [Rule.all, Rule.literals],
            Pattern.mem_integer.mpr hdigits, rfl⟩
      | float hdigits hfraction =>
          exact ⟨.carrying .float .float, by simp [Rule.all, Rule.literals],
            Pattern.mem_float.mpr ⟨_, _, rfl, hdigits, hfraction⟩, rfl⟩
      | string hrun =>
          exact ⟨.carrying .string .string, by simp [Rule.all, Rule.literals],
            Pattern.mem_string.mpr ⟨_, rfl, hrun⟩, rfl⟩
      | symbol mark =>
          exact ⟨.fixed mark.chars (.symbol mark),
            by simp [Rule.all, Rule.symbols, mem_symbols], rfl, rfl⟩

/-! ## Nothing longer matches -/

/-- The scanner reads something at the head of the text, and no less than the given
number of characters. -/
def Reaches (text : List Char) (length : Nat) : Prop :=
  (scan text).1 ≠ .unreadable ∧ length ≤ (scan text).2

theorem reaches_of_scan {length reached : Nat} (hscan : scan text = (reading, reached))
    (hreading : reading ≠ .unreadable) (hlength : length ≤ reached) : Reaches text length := by
  rw [Reaches, hscan]
  exact ⟨hreading, hlength⟩

theorem length_le_takeWhile_append {belongs : Char → Bool}
    (hrun : ∀ c ∈ run, belongs c = true) (rest : List Char) :
    run.length ≤ ((run ++ rest).takeWhile belongs).length := by
  rw [List.takeWhile_append_of_pos hrun, List.length_append]
  exact Nat.le_add_right _ _

theorem IsDigits.length_le_digitCount (hdigits : IsDigits text) (rest : List Char) :
    text.length ≤ digitCount (text ++ rest) :=
  length_le_takeWhile_append hdigits.all rest

theorem IsExponent.length_le_exponentLength (hexponent : IsExponent text)
    (rest : List Char) : text.length ≤ exponentLength (text ++ rest) := by
  cases hexponent with
  | absent => exact Nat.zero_le _
  | @unsigned mark digits hmark hdigits =>
      have hcount := hdigits.length_le_digitCount rest
      have hpos := List.length_pos_iff.mpr hdigits.ne_nil
      have hsome : digitCount (digits ++ rest) ≠ 0 := by omega
      simp only [List.cons_append, exponentLength, signLength_digits hdigits, List.drop_zero,
        hmark, hsome, ne_eq, not_false_iff, and_self, if_true, List.length_cons]
      omega
  | @signed mark sign digits hmark hsign hdigits =>
      have hcount := hdigits.length_le_digitCount rest
      have hpos := List.length_pos_iff.mpr hdigits.ne_nil
      have hsome : digitCount (digits ++ rest) ≠ 0 := by omega
      simp only [List.cons_append, exponentLength, signLength, hsign, if_true,
        List.drop_succ_cons, List.drop_zero, hmark, hsome, ne_eq, not_false_iff, and_self,
        List.length_cons]
      omega

theorem fractionLength_point {digits : List Char} (hdigits : IsDigits digits)
    (rest : List Char) : fractionLength ('.' :: (digits ++ rest)) =
      1 + digitCount (digits ++ rest) +
        exponentLength ((digits ++ rest).drop (digitCount (digits ++ rest))) := by
  have hcount := hdigits.length_le_digitCount rest
  have hpos := List.length_pos_iff.mpr hdigits.ne_nil
  exact if_pos ⟨rfl, by omega⟩

theorem IsFraction.length_le_fractionLength (hfraction : IsFraction text)
    (rest : List Char) : text.length ≤ fractionLength (text ++ rest) := by
  obtain @⟨digits, exponent, hdigits, hexponent⟩ := hfraction
  rw [List.cons_append, List.append_assoc, fractionLength_point hdigits, List.length_cons,
    List.length_append]
  by_cases hnone : exponent = []
  · have hcount := hdigits.length_le_digitCount (exponent ++ rest)
    rw [hnone, List.length_nil]
    rw [hnone] at hcount
    omega
  · -- an exponent ends the digits, whatever follows
    have hstops : Stops Char.isDigit (exponent ++ rest) := by
      cases hexponent with
      | absent => exact absurd rfl hnone
      | unsigned hmark _ =>
          rintro c ⟨⟩
          rcases hmark with rfl | rfl <;> rfl
      | signed hmark _ _ =>
          rintro c ⟨⟩
          rcases hmark with rfl | rfl <;> rfl
    have hlength := hexponent.length_le_exponentLength rest
    rw [digitCount_append hdigits hstops, List.drop_left]
    omega

theorem scanNumber_reaches {digits : List Char} (hdigits : IsDigits digits)
    {length : Nat} (hlength : length ≤ (scanNumber (digits ++ rest)).2) :
    Reaches (digits ++ rest) length := by
  obtain ⟨c, more, rfl⟩ := List.exists_cons_of_ne_nil hdigits.ne_nil
  rw [List.cons_append] at hlength ⊢
  have hscan : scan (c :: (more ++ rest)) = _ := scan_number (hdigits.all c List.mem_cons_self)
  exact reaches_of_scan (hscan.trans rfl) (by simp) hlength

theorem integer_reaches {digits : List Char} (hdigits : IsDigits digits)
    (rest : List Char) : Reaches (digits ++ rest) digits.length :=
  scanNumber_reaches hdigits
    (Nat.le_trans (hdigits.length_le_digitCount rest) (Nat.le_add_right _ _))

theorem float_reaches {digits fraction : List Char} (hdigits : IsDigits digits)
    (hfraction : IsFraction fraction) (rest : List Char) :
    Reaches (digits ++ fraction ++ rest) (digits ++ fraction).length := by
  have hstops : Stops Char.isDigit (fraction ++ rest) := by
    cases hfraction
    rintro c ⟨⟩
    rfl
  have hlength := hfraction.length_le_fractionLength rest
  rw [List.append_assoc, List.length_append]
  apply scanNumber_reaches hdigits
  rw [scanNumber, digitCount_append hdigits hstops, List.drop_left]
  exact Nat.add_le_add_left hlength _

theorem isOpenComment_iff {body : List Char} :
    IsOpenComment ('/' :: '*' :: body) ↔ commentLength body = none := by
  constructor
  · intro hopen
    cases hlength : commentLength body with
    | none => rfl
    | some length =>
        obtain ⟨inner, rest, rfl, _⟩ := exists_of_commentLength hlength
        exact absurd ⟨inner, rest, by simp⟩ hopen.unclosed
  · intro hnone
    exact ⟨⟨body, rfl⟩, not_infix_of_commentLength hnone⟩

/-- Where a symbol goes on, a longer symbol or a comment begins. -/
theorem symbol_reaches (mark : Symbol) (hclosed : ¬ IsOpenComment (mark.chars ++ rest)) :
    Reaches (mark.chars ++ rest) mark.chars.length := by
  by_cases hstops : Stops mark.goesOn rest
  · exact reaches_of_scan (scan_symbol mark hstops) (by simp) (Nat.le_refl _)
  simp only [Stops, not_forall, Bool.not_eq_false] at hstops
  obtain ⟨c, hhead, hgoes⟩ := hstops
  obtain ⟨more, rfl⟩ := List.head?_eq_some_iff.mp hhead
  have hlonger (longer : Symbol) (hends : ∀ d, longer.goesOn d = false)
      (hlength : mark.chars.length ≤ longer.chars.length) :
      Reaches (longer.chars ++ more) mark.chars.length :=
    reaches_of_scan (scan_symbol longer fun d _ => hends d) (by simp) hlength
  cases mark with
  | assign =>
      obtain rfl : c = '=' := of_decide_eq_true hgoes
      exact hlonger .equal (fun _ => rfl) (by decide)
  | bang =>
      obtain rfl : c = '=' := of_decide_eq_true hgoes
      exact hlonger .notEqual (fun _ => rfl) (by decide)
  | less =>
      obtain rfl : c = '=' := of_decide_eq_true hgoes
      exact hlonger .lessEqual (fun _ => rfl) (by decide)
  | greater =>
      obtain rfl : c = '=' := of_decide_eq_true hgoes
      exact hlonger .greaterEqual (fun _ => rfl) (by decide)
  | slash =>
      simp only [Symbol.goesOn, Bool.or_eq_true, decide_eq_true_eq] at hgoes
      rcases hgoes with rfl | rfl
      · exact reaches_of_scan (scan_lineComment more) (by simp) (by simp [Symbol.chars])
      · cases hlength : commentLength more with
        | none => exact absurd (isOpenComment_iff.mpr hlength) hclosed
        | some length =>
            exact reaches_of_scan (scan_blockComment hlength) (by simp) (by simp [Symbol.chars])
  | _ => cases hgoes

/-- Whatever a text starts with, the scanner reads no less, unless the text opens a
comment that it does not close. -/
theorem Spells.reaches (hspells : Spells reading run)
    (hclosed : ¬ IsOpenComment (run ++ rest)) : Reaches (run ++ rest) run.length := by
  cases hspells with
  | layout hlayout =>
      cases hlayout with
      | blanks hne hrun =>
          have hlength := length_le_takeWhile_append hrun rest
          obtain ⟨c, run, rfl⟩ := List.exists_cons_of_ne_nil hne
          exact reaches_of_scan (scan_blank (hrun c List.mem_cons_self) _) (by simp) hlength
      | lineComment hbody =>
          exact reaches_of_scan (scan_lineComment _) (by simp)
            (length_le_takeWhile_append (ne_newline_of_mem hbody) rest)
      | blockComment hbody =>
          exact reaches_of_scan (IsLayout.scan_append (.blockComment hbody)) (by simp)
            (Nat.le_refl _)
  | token hlexeme =>
      cases hlexeme with
      | @word c text hstart htext =>
          have hword : ∀ d ∈ c :: text, isWordChar d = true :=
            List.forall_mem_cons.mpr ⟨isWordChar_of_isWordStart hstart, htext⟩
          exact reaches_of_scan (scan_word hstart) (by simp)
            (length_le_takeWhile_append hword rest)
      | integer hdigits => exact integer_reaches hdigits rest
      | float hdigits hfraction => exact float_reaches hdigits hfraction rest
      | string hrun =>
          exact reaches_of_scan (Lexeme.scan_append (.string hrun) fun _ _ => rfl) (by simp)
            (Nat.le_refl _)
      | symbol mark => exact symbol_reaches mark hclosed

/-! ## One step -/

/-- What the scanner reads at the head of a text is spelled by what it takes. -/
theorem spells_of_scan (hne : run ≠ []) (hscan : scan (run ++ rest) = (reading, run.length))
    (hreading : reading ≠ .unreadable) : Spells reading run := by
  cases reading with
  | layout =>
      obtain ⟨own, more, htext, hlayout, hlength⟩ :=
        isLayout_of_scan (List.append_ne_nil_of_left_ne_nil hne _) hscan
      rw [(List.append_inj htext hlength.symm).1]
      exact .layout hlayout.alone
  | token kind =>
      obtain ⟨own, more, htext, hlexeme, hlength⟩ := cuts_of_scan hscan
      rw [(List.append_inj htext hlength.symm).1]
      exact .token hlexeme
  | unreadable => exact absurd rfl hreading

/-- A spelling on its own is read as what it spells. -/
theorem Spells.scan_eq (hspells : Spells reading text) :
    scan text = (reading, text.length) := by
  rw [← List.append_nil text, List.length_append, List.length_nil, Nat.add_zero]
  cases hspells with
  | layout hlayout => exact hlayout.scan_append
  | token hlexeme => exact hlexeme.scan_append (stops_nil _)

theorem Spells.unique {other : Reading} (hspells : Spells reading text)
    (hother : Spells other text) : other = reading := by
  have hscan := hspells.scan_eq
  rw [hother.scan_eq, Prod.mk.injEq] at hscan
  exact hscan.1

theorem scan_of_isOpenComment (hopen : IsOpenComment text) : (scan text).1 = .unreadable := by
  obtain ⟨body, rfl⟩ := hopen.opens
  have hnone : commentLength body = none := isOpenComment_iff.mp hopen
  simp [scan, isBlank, hnone]

/-- What a step reads is the longest match. -/
theorem longestMatch_of_scan (hne : run ≠ [])
    (hscan : scan (run ++ rest) = (reading, run.length)) (hreading : reading ≠ .unreadable) :
    LongestMatch (run ++ rest) run reading where
  ne_nil := hne
  starts := List.prefix_append run rest
  longest := by
    intro rule hrule other hprefixed hmatches
    obtain ⟨more, hmore⟩ := hprefixed
    have hclosed : ¬ IsOpenComment (run ++ rest) := by
      intro hopen
      have hunreadable := scan_of_isOpenComment hopen
      rw [hscan] at hunreadable
      exact hreading hunreadable
    obtain ⟨_, hspells, _⟩ := spells_of_matches hrule hmatches
    have hreaches : Reaches (other ++ more) other.length :=
      hspells.reaches (by rwa [hmore])
    rw [hmore, Reaches, hscan] at hreaches
    exact hreaches.2
  matched := (spells_of_scan hne hscan hreading).exists_rule
  read := by
    intro rule hrule hmatches
    obtain ⟨other, hspells, hread⟩ := spells_of_matches hrule hmatches
    obtain rfl := hspells.unique (spells_of_scan hne hscan hreading)
    exact hread

/-- A step reads nothing where no rule matches, or where a comment is opened and never
closed. -/
theorem unreadable_iff (hne : run ≠ [])
    (hscan : scan (run ++ rest) = (reading, run.length)) :
    reading = .unreadable ↔ NoMatch (run ++ rest) ∨ IsOpenComment (run ++ rest) := by
  constructor
  · intro hunreadable
    by_cases hopen : IsOpenComment (run ++ rest)
    · exact .inr hopen
    · refine .inl ?_
      rintro rule hrule own _ ⟨more, hmore⟩ hmatches
      obtain ⟨_, hspells, _⟩ := spells_of_matches hrule hmatches
      have hreaches : Reaches (own ++ more) own.length :=
        hspells.reaches (by rwa [hmore])
      rw [hmore, Reaches, hscan] at hreaches
      exact hreaches.1 hunreadable
  · rintro (hnone | hopen)
    · by_contra hreading
      obtain ⟨rule, hrule, hmatches, _⟩ := (spells_of_scan hne hscan hreading).exists_rule
      exact hnone rule hrule run hne (List.prefix_append run rest) hmatches
    · have hunreadable := scan_of_isOpenComment hopen
      rwa [hscan] at hunreadable

/-! ## Every step -/

theorem flatMap_regions (table : LineTable) (cut : List Piece) :
    ∀ offset, (regions table offset cut).flatMap (·.1.text) = cut.flatMap Piece.text := by
  induction cut with
  | nil => exact fun _ => rfl
  | cons piece rest ih =>
      intro offset
      rw [regions, List.flatMap_cons, List.flatMap_cons, ih]

/-- Reading a source goes from its start to its end in steps, of which the results are
those that are not skipped.  Each step takes the longest match of the declared patterns
at its place and reads it as they say; it reads nothing exactly where no pattern
matches, or where a comment is opened that the source never closes. -/
theorem lex_longestMatch (source : List Char) :
    lex source = (sourceRegions source).filterMap result? ∧
      (sourceRegions source).flatMap (·.1.text) = source ∧
      ∀ piece span, (piece, span) ∈ sourceRegions source →
        ∃ before text, source = before ++ text ∧ piece.text <+: text ∧
          span.start = byteLength before ∧
          span.stop = byteLength before + byteLength piece.text ∧
          (piece.reading ≠ .unreadable → LongestMatch text piece.text piece.reading) ∧
          (piece.reading = .unreadable ↔ NoMatch text ∨ IsOpenComment text) := by
  refine ⟨lex_eq_filterMap source, ?_, ?_⟩
  · rw [sourceRegions, flatMap_regions, (pieces_cut source).flatMap_text]
  · intro piece span hmem
    obtain ⟨before, after, hsource, hspan, hne, hscan⟩ := cutAt_of_mem hmem
    dsimp only at hsource hspan hne hscan
    rw [hspan]
    exact ⟨before, piece.text ++ after, hsource, List.prefix_append _ _, rfl, rfl,
      longestMatch_of_scan hne hscan, unreadable_iff hne hscan⟩

/-- An exponent without digits is left to the next step: `1.5` is the longest match at
the start of `1.5e+`, and it is read as a number. -/
theorem lex_longestMatch_exponent :
    LongestMatch ['1', '.', '5', 'e', '+'] ['1', '.', '5'] (.token (.float "1.5")) := by
  obtain ⟨before, text, hsource, _, hstart, _, hmatch, _⟩ :=
    (lex_longestMatch ['1', '.', '5', 'e', '+']).2.2
      { reading := .token (.float "1.5"), text := ['1', '.', '5'] }
      { start := 0, stop := 3, line := 1, column := 1 } (by decide)
  obtain rfl : before = [] := by
    by_contra hne
    exact absurd hstart (Nat.ne_of_lt (byteLength_pos hne))
  rw [hsource]
  exact hmatch (by simp)

end DeclCheck.Lexer
