import DeclCheck.Proofs.Token.Pieces
import Mathlib.Computability.Language

/-!
# Patterns of tokens and layout

What a token or a piece of layout looks like is declared by patterns, which are read as
languages and know nothing of scanning.  Each pattern is characterised by the shape of
the texts that it matches; the one that takes thought is the block comment, whose
pattern spells out that no mark inside it closes it.
-/

namespace DeclCheck.Lexer

open Computability

/-- Patterns, put together as regular expressions are. -/
inductive Pattern where
  | one (belongs : Char → Bool)
  | word (chars : List Char)
  | seq (first second : Pattern)
  | either (first second : Pattern)
  | many (inner : Pattern)

namespace Pattern

/-- The texts that a pattern matches. -/
def language : Pattern → Language Char
  | one belongs => {text | ∃ c, belongs c = true ∧ text = [c]}
  | word chars => {chars}
  | seq first second => first.language * second.language
  | either first second => first.language + second.language
  | many inner => inner.language∗

/-- One or more of a pattern. -/
def atLeastOne (inner : Pattern) : Pattern :=
  seq inner (many inner)

/-- A pattern, or nothing. -/
def maybe (inner : Pattern) : Pattern :=
  either (word []) inner

variable {inner first second : Pattern} {belongs : Char → Bool} {text : List Char}

@[simp]
theorem mem_one : text ∈ (one belongs).language ↔ ∃ c, belongs c = true ∧ text = [c] :=
  Iff.rfl

@[simp]
theorem mem_word {chars : List Char} : text ∈ (word chars).language ↔ text = chars :=
  Iff.rfl

@[simp]
theorem mem_seq : text ∈ (seq first second).language ↔
    ∃ left ∈ first.language, ∃ right ∈ second.language, left ++ right = text :=
  Language.mem_mul

@[simp]
theorem mem_either : text ∈ (either first second).language ↔
    text ∈ first.language ∨ text ∈ second.language :=
  Iff.rfl

theorem nil_mem_many : [] ∈ (many inner).language :=
  Language.nil_mem_kstar _

theorem append_mem_many {rest : List Char} (htext : text ∈ inner.language)
    (hrest : rest ∈ (many inner).language) : text ++ rest ∈ (many inner).language := by
  obtain ⟨parts, rfl, hparts⟩ := Language.mem_kstar.mp hrest
  exact Language.mem_kstar.mpr ⟨text :: parts, rfl, List.forall_mem_cons.mpr ⟨htext, hparts⟩⟩

/-- What holds of nothing and survives one more match holds of every repetition. -/
theorem many_induction {holds : List Char → Prop} (hnil : holds [])
    (happend : ∀ part ∈ inner.language, ∀ rest, holds rest → holds (part ++ rest))
    (hmany : text ∈ (many inner).language) : holds text := by
  obtain ⟨parts, rfl, hparts⟩ := Language.mem_kstar.mp hmany
  clear hmany
  induction parts with
  | nil => exact hnil
  | cons part parts ih =>
      rw [List.forall_mem_cons] at hparts
      exact happend part hparts.1 _ (ih hparts.2)

theorem mem_many_one :
    text ∈ (many (one belongs)).language ↔ ∀ c ∈ text, belongs c = true := by
  constructor
  · apply many_induction
    · exact List.forall_mem_nil _
    · rintro _ ⟨c, hc, rfl⟩ rest hrest
      exact List.forall_mem_cons.mpr ⟨hc, hrest⟩
  · intro hall
    induction text with
    | nil => exact nil_mem_many
    | cons c rest ih =>
        rw [List.forall_mem_cons] at hall
        exact append_mem_many (mem_one.mpr ⟨c, hall.1, rfl⟩) (ih hall.2)

theorem mem_atLeastOne_one :
    text ∈ (atLeastOne (one belongs)).language ↔ text ≠ [] ∧ ∀ c ∈ text, belongs c = true := by
  simp only [atLeastOne, mem_seq, mem_one, mem_many_one]
  constructor
  · rintro ⟨_, ⟨c, hc, rfl⟩, rest, hrest, rfl⟩
    exact ⟨List.cons_ne_nil _ _, List.forall_mem_cons.mpr ⟨hc, hrest⟩⟩
  · rintro ⟨hne, hall⟩
    obtain ⟨c, rest, rfl⟩ := List.exists_cons_of_ne_nil hne
    rw [List.forall_mem_cons] at hall
    exact ⟨[c], ⟨c, hall.1, rfl⟩, rest, hall.2, rfl⟩

/-! ## The declared patterns -/

/-- The characters from the first to the last of a range. -/
def range (low high c : Char) : Bool :=
  low ≤ c && c ≤ high

def digit : Char → Bool :=
  range '0' '9'

def letter (c : Char) : Bool :=
  range 'a' 'z' c || range 'A' 'Z' c || c = '_'

def letterOrDigit (c : Char) : Bool :=
  letter c || digit c

/-- Blanks: `[ \t\n\r\f]+`. -/
def blanks : Pattern :=
  atLeastOne (one fun c => [' ', '\t', '\n', '\r', '\x0c'].contains c)

/-- A comment up to the end of its line: `//[^\n]*`. -/
def lineComment : Pattern :=
  seq (word ['/', '/']) (many (one (· ≠ '\n')))

/-- Anything but stars, and then stars: `[^*]*\*+`. -/
def toStars : Pattern :=
  seq (many (one (· ≠ '*'))) (atLeastOne (one (· = '*')))

/-- The inside of a block comment with the star that closes it:
`[^*]*\*+(?:[^/*][^*]*\*+)*`. -/
def commentInside : Pattern :=
  seq toStars (many (seq (one fun c => c ≠ '/' && c ≠ '*') toStars))

/-- A block comment: `/\*[^*]*\*+(?:[^/*][^*]*\*+)*/`. -/
def blockComment : Pattern :=
  seq (word ['/', '*']) (seq commentInside (word ['/']))

/-- A name: `[a-zA-Z_][a-zA-Z0-9_]*`. -/
def identifier : Pattern :=
  seq (one letter) (many (one letterOrDigit))

/-- A whole number: `[0-9]+`. -/
def integer : Pattern :=
  atLeastOne (one digit)

/-- An exponent: `[eE][+-]?[0-9]+`. -/
def exponent : Pattern :=
  seq (one fun c => c = 'e' || c = 'E')
    (seq (maybe (one fun c => c = '+' || c = '-')) integer)

/-- A number with a fraction: `[0-9]+\.[0-9]+([eE][+-]?[0-9]+)?`. -/
def float : Pattern :=
  seq integer (seq (word ['.']) (seq integer (maybe exponent)))

/-- A plain or an escaped character: `[^"\\\n]|\\.`, where the point stands for
anything but a newline. -/
def quotedChar : Pattern :=
  either (one fun c => c ≠ '"' && c ≠ '\\' && c ≠ '\n')
    (seq (word ['\\']) (one (· ≠ '\n')))

/-- A quoted text: `"([^"\\\n]|\\.)*"`. -/
def string : Pattern :=
  seq (word ['"']) (seq (many quotedChar) (word ['"']))

/-! ## The texts they match -/

theorem mem_blanks :
    text ∈ blanks.language ↔ text ≠ [] ∧ ∀ c ∈ text, isBlank c = true := by
  have hclass : ∀ c : Char, [' ', '\t', '\n', '\r', '\x0c'].contains c = isBlank c := by
    intro c
    simp [isBlank, Bool.or_assoc]
  simp only [blanks, mem_atLeastOne_one, hclass]

theorem mem_lineComment :
    text ∈ lineComment.language ↔ ∃ body, text = '/' :: '/' :: body ∧ '\n' ∉ body := by
  simp only [lineComment, mem_seq, mem_word, mem_many_one]
  constructor
  · rintro ⟨_, rfl, body, hbody, rfl⟩
    exact ⟨body, rfl, fun hmem => by simpa using hbody '\n' hmem⟩
  · rintro ⟨body, rfl, hbody⟩
    refine ⟨['/', '/'], rfl, body, ?_, rfl⟩
    intro c hmem
    exact decide_eq_true fun hnewline => hbody (hnewline ▸ hmem)

theorem letter_eq (c : Char) : letter c = isWordStart c := by
  have hlower : range 'a' 'z' c = c.isLower := rfl
  have hupper : range 'A' 'Z' c = c.isUpper := (Bool.decide_and _ _).symm
  have halpha : c.isAlpha = (c.isUpper || c.isLower) := rfl
  rw [letter, isWordStart, halpha, hlower, hupper, Bool.or_comm c.isLower]

theorem letterOrDigit_eq (c : Char) : letterOrDigit c = isWordChar c := by
  have hdigit : digit c = c.isDigit := rfl
  rw [letterOrDigit, letter_eq, hdigit, isWordStart, isWordChar, Char.isAlphanum,
    Bool.or_right_comm]

theorem mem_identifier :
    text ∈ identifier.language ↔ ∃ c rest, text = c :: rest ∧ isWordStart c = true ∧
      ∀ d ∈ rest, isWordChar d = true := by
  simp only [identifier, mem_seq, mem_one, mem_many_one, letter_eq, letterOrDigit_eq]
  constructor
  · rintro ⟨_, ⟨c, hc, rfl⟩, rest, hrest, rfl⟩
    exact ⟨c, rest, rfl, hc, hrest⟩
  · rintro ⟨c, rest, rfl, hc, hrest⟩
    exact ⟨[c], ⟨c, hc, rfl⟩, rest, hrest, rfl⟩

theorem mem_integer : text ∈ integer.language ↔ IsDigits text := by
  rw [integer, mem_atLeastOne_one]
  constructor
  · rintro ⟨hne, hall⟩
    exact ⟨hne, hall⟩
  · rintro ⟨hne, hall⟩
    exact ⟨hne, hall⟩

theorem mem_maybe_exponent :
    text ∈ (maybe exponent).language ↔ IsExponent text := by
  simp only [maybe, exponent, mem_either, mem_word, mem_seq, mem_one, mem_integer,
    Bool.or_eq_true, decide_eq_true_eq]
  constructor
  · rintro (rfl | ⟨_, ⟨mark, hmark, rfl⟩, _, ⟨_, rfl | ⟨sign, hsign, rfl⟩, digits,
      hdigits, rfl⟩, rfl⟩)
    · exact .absent
    · exact .unsigned hmark hdigits
    · exact .signed hmark hsign hdigits
  · intro hexponent
    cases hexponent with
    | absent => exact .inl rfl
    | @unsigned mark digits hmark hdigits =>
        exact .inr ⟨[mark], ⟨mark, hmark, rfl⟩, digits, ⟨[], .inl rfl, digits, hdigits, rfl⟩,
          rfl⟩
    | @signed mark sign digits hmark hsign hdigits =>
        exact .inr ⟨[mark], ⟨mark, hmark, rfl⟩, sign :: digits,
          ⟨[sign], .inr ⟨sign, hsign, rfl⟩, digits, hdigits, rfl⟩, rfl⟩

theorem mem_float :
    text ∈ float.language ↔ ∃ digits fraction, text = digits ++ fraction ∧
      IsDigits digits ∧ IsFraction fraction := by
  rw [float]
  simp only [mem_seq, mem_integer, mem_word, mem_maybe_exponent]
  constructor
  · rintro ⟨digits, hdigits, _, ⟨_, rfl, _, ⟨decimals, hdecimals, exponent, hexponent, rfl⟩,
      rfl⟩, rfl⟩
    exact ⟨digits, '.' :: (decimals ++ exponent), rfl, hdigits, .intro hdecimals hexponent⟩
  · rintro ⟨digits, _, rfl, hdigits, @⟨decimals, exponent, hdecimals, hexponent⟩⟩
    exact ⟨digits, hdigits, _, ⟨['.'], rfl, _, ⟨decimals, hdecimals, exponent, hexponent, rfl⟩,
      rfl⟩, rfl⟩

theorem mem_quotedChar :
    text ∈ quotedChar.language ↔
      (∃ c, text = [c] ∧ c ≠ '"' ∧ c ≠ '\\' ∧ c ≠ '\n') ∨
        ∃ c, text = ['\\', c] ∧ c ≠ '\n' := by
  simp only [quotedChar, mem_either, mem_seq, mem_one, mem_word, Bool.and_eq_true,
    decide_eq_true_eq]
  constructor
  · rintro (⟨c, ⟨⟨hquote, hescape⟩, hnewline⟩, rfl⟩ | ⟨_, rfl, _, ⟨c, hnewline, rfl⟩, rfl⟩)
    · exact .inl ⟨c, rfl, hquote, hescape, hnewline⟩
    · exact .inr ⟨c, rfl, hnewline⟩
  · rintro (⟨c, rfl, hquote, hescape, hnewline⟩ | ⟨c, rfl, hnewline⟩)
    · exact .inl ⟨c, ⟨⟨hquote, hescape⟩, hnewline⟩, rfl⟩
    · exact .inr ⟨['\\'], rfl, [c], ⟨c, hnewline, rfl⟩, rfl⟩

theorem mem_many_quotedChar : text ∈ (many quotedChar).language ↔ IsQuotedRun text := by
  constructor
  · apply many_induction
    · exact .nil
    · intro part hpart rest hrest
      obtain ⟨c, rfl, hquote, hescape, hnewline⟩ | ⟨c, rfl, hnewline⟩ :=
        mem_quotedChar.mp hpart
      · exact .plain hquote hescape hnewline hrest
      · exact .escaped hnewline hrest
  · intro hrun
    induction hrun with
    | nil => exact nil_mem_many
    | @plain c run hquote hescape hnewline hrun ih =>
        exact append_mem_many (mem_quotedChar.mpr (.inl ⟨c, rfl, hquote, hescape, hnewline⟩)) ih
    | @escaped c run hnewline hrun ih =>
        exact append_mem_many (mem_quotedChar.mpr (.inr ⟨c, rfl, hnewline⟩)) ih

theorem mem_string :
    text ∈ string.language ↔ ∃ run, text = '"' :: (run ++ ['"']) ∧ IsQuotedRun run := by
  simp only [string, mem_seq, mem_word, mem_many_quotedChar]
  constructor
  · rintro ⟨_, rfl, _, ⟨run, hrun, _, rfl, rfl⟩, rfl⟩
    exact ⟨run, rfl, hrun⟩
  · rintro ⟨run, rfl, hrun⟩
    exact ⟨['"'], rfl, _, ⟨run, hrun, ['"'], rfl, rfl⟩, rfl⟩

/-! ### Block comments -/

/-- The two characters next to one another do not close a comment. -/
def Open (c d : Char) : Prop :=
  ¬(c = '*' ∧ d = '/')

theorem isChain_open_iff : text.IsChain Open ↔ ¬ ['*', '/'] <:+: text := by
  rw [List.isChain_iff_forall_rel_of_append_cons_cons]
  constructor
  · rintro hopen ⟨before, after, rfl⟩
    exact hopen (List.append_assoc before ['*', '/'] after) ⟨rfl, rfl⟩
  · rintro hcloses c d before after rfl ⟨rfl, rfl⟩
    exact hcloses ⟨before, after, by simp⟩

/-- The text ends with a star, and nothing in it closes a comment. -/
structure EndsWithStar (text : List Char) : Prop where
  last : text.getLast? = some '*'
  chain : text.IsChain Open

theorem EndsWithStar.append {rest : List Char} (hrest : EndsWithStar rest)
    (hchain : text.IsChain Open)
    (hmeet : text.getLast? = some '*' → rest.head? ≠ some '/') :
    EndsWithStar (text ++ rest) where
  last := by rw [List.getLast?_append, hrest.last, Option.some_or]
  chain := by
    refine List.isChain_append.mpr ⟨hchain, hrest.chain, ?_⟩
    rintro c hc d hd ⟨rfl, rfl⟩
    exact hmeet hc hd

theorem EndsWithStar.ne_nil (hends : EndsWithStar text) : text ≠ [] := by
  rintro rfl
  cases hends.last

theorem endsWithStar_iff :
    EndsWithStar text ↔ ∃ body, text = body ++ ['*'] ∧ ¬ ['*', '/'] <:+: text := by
  constructor
  · rintro ⟨hlast, hchain⟩
    obtain ⟨body, hbody⟩ := List.getLast?_eq_some_iff.mp hlast
    exact ⟨body, hbody, isChain_open_iff.mp hchain⟩
  · rintro ⟨body, hbody, hcloses⟩
    exact ⟨List.getLast?_eq_some_iff.mpr ⟨body, hbody⟩, isChain_open_iff.mpr hcloses⟩

theorem endsWithStar_of_mem_toStars (hmem : text ∈ toStars.language) :
    EndsWithStar text := by
  simp only [toStars, mem_seq, mem_many_one, mem_atLeastOne_one, decide_eq_true_eq] at hmem
  obtain ⟨plain, hplain, stars, ⟨hne, hstars⟩, rfl⟩ := hmem
  have hends : EndsWithStar stars := by
    refine ⟨?_, isChain_open_iff.mpr ?_⟩
    · rw [List.getLast?_eq_some_getLast hne, hstars _ (List.getLast_mem hne)]
    · intro hcloses
      have hslash := hstars '/' (hcloses.subset (by simp))
      exact absurd hslash (by decide)
  apply hends.append
  · rw [isChain_open_iff]
    intro hcloses
    exact hplain '*' (hcloses.subset (by simp)) rfl
  · intro _ hhead
    have hslash := hstars '/' (List.mem_of_mem_head? hhead)
    exact absurd hslash (by decide)

/-- What stands between the first stars of a comment and its end. -/
theorem endsWithStar_of_mem_many
    (hmem : text ∈ (many (seq (one fun c => c ≠ '/' && c ≠ '*') toStars)).language) :
    text = [] ∨ EndsWithStar text ∧ text.head? ≠ some '/' := by
  apply many_induction (.inl rfl) ?_ hmem
  intro part hpart rest hrest
  obtain ⟨_, ⟨c, hc, rfl⟩, stars, hstars, rfl⟩ := mem_seq.mp hpart
  simp only [Bool.and_eq_true, decide_eq_true_eq] at hc
  have hends : EndsWithStar ([c] ++ stars) := by
    apply (endsWithStar_of_mem_toStars hstars).append (List.isChain_singleton c)
    rintro ⟨⟩
    exact absurd rfl hc.2
  refine .inr ⟨?_, fun hslash => hc.1 (Option.some.inj hslash)⟩
  rcases hrest with rfl | ⟨hrest, hhead⟩
  · rwa [List.append_nil]
  · exact hrest.append hends.chain fun _ => hhead

theorem exists_toStars (hstar : '*' ∈ text) :
    ∃ first rest, text = first ++ rest ∧ first ∈ toStars.language ∧
      rest.head? ≠ some '*' := by
  obtain ⟨plain, more, rfl, hplain⟩ := List.eq_append_cons_of_mem hstar
  refine ⟨plain ++ ('*' :: more).takeWhile (· = '*'), ('*' :: more).dropWhile (· = '*'),
    ?_, ?_, ?_⟩
  · rw [List.append_assoc, List.takeWhile_append_dropWhile]
  · refine mem_seq.mpr ⟨plain, mem_many_one.mpr ?_, _, mem_atLeastOne_one.mpr ⟨?_, ?_⟩, rfl⟩
    · intro c hmem
      exact decide_eq_true fun hc => hplain (hc ▸ hmem)
    · simp
    · exact List.all_eq_true.mp List.all_takeWhile
  · intro hnext
    exact absurd (stops_dropWhile _ _ '*' hnext) (by decide)

/-- Up to its first stars a text that ends with a star is the head of a comment, and
what follows them is another such text behind a character that closes nothing. -/
theorem mem_commentInside_of_endsWithStar (bound : Nat) :
    ∀ {text : List Char}, text.length ≤ bound → EndsWithStar text →
      text ∈ commentInside.language := by
  induction bound with
  | zero =>
      intro text hbound hends
      exact absurd (List.length_eq_zero_iff.mp (Nat.le_zero.mp hbound)) hends.ne_nil
  | succ bound ih =>
      intro text hbound hends
      obtain ⟨first, rest, rfl, hfirst, hstop⟩ :=
        exists_toStars (List.mem_of_mem_getLast? hends.last)
      cases rest with
      | nil => exact mem_seq.mpr ⟨first, hfirst, [], nil_mem_many, rfl⟩
      | cons c rest =>
          obtain ⟨_, hchain, hmeet⟩ := List.isChain_append.mp hends.chain
          have hslash : c ≠ '/' := by
            rintro rfl
            have hlast := (endsWithStar_of_mem_toStars hfirst).last
            exact hmeet '*' hlast '/' rfl ⟨rfl, rfl⟩
          have hstar : c ≠ '*' := fun hc => hstop (congrArg some hc)
          have hlast : rest.getLast? = some '*' := by
            have hwhole := hends.last
            rw [List.getLast?_append, List.getLast?_cons, Option.some_or] at hwhole
            cases hrest : rest.getLast? with
            | none =>
                rw [hrest] at hwhole
                exact absurd (Option.some.inj hwhole) hstar
            | some d =>
                rw [hrest] at hwhole
                exact hwhole
          have hlength : rest.length ≤ bound := by
            rw [List.length_append, List.length_cons] at hbound
            omega
          obtain ⟨second, hsecond, more, hmore, rfl⟩ :=
            mem_seq.mp (ih hlength ⟨hlast, hchain.tail⟩)
          have hpart : [c] ++ second ∈
              (seq (one fun c => c ≠ '/' && c ≠ '*') toStars).language :=
            mem_seq.mpr ⟨[c], ⟨c, by simp [hslash, hstar], rfl⟩, second, hsecond, rfl⟩
          exact mem_seq.mpr ⟨first, hfirst, _, append_mem_many hpart hmore, rfl⟩

theorem mem_commentInside : text ∈ commentInside.language ↔ EndsWithStar text := by
  constructor
  · intro hmem
    obtain ⟨first, hfirst, rest, hrest, rfl⟩ := mem_seq.mp hmem
    have hends := endsWithStar_of_mem_toStars hfirst
    rcases endsWithStar_of_mem_many hrest with rfl | ⟨hrest, hhead⟩
    · rwa [List.append_nil]
    · exact hrest.append hends.chain fun _ => hhead
  · exact mem_commentInside_of_endsWithStar text.length (Nat.le_refl _)

theorem mem_blockComment :
    text ∈ blockComment.language ↔ ∃ body, text = '/' :: '*' :: (body ++ ['*', '/']) ∧
      ¬ ['*', '/'] <:+: body ++ ['*'] := by
  simp only [blockComment, mem_seq, mem_word, mem_commentInside, endsWithStar_iff]
  constructor
  · rintro ⟨_, rfl, _, ⟨_, ⟨body, rfl, hbody⟩, _, rfl, rfl⟩, rfl⟩
    exact ⟨body, by simp, hbody⟩
  · rintro ⟨body, rfl, hbody⟩
    exact ⟨['/', '*'], rfl, _, ⟨body ++ ['*'], ⟨body, rfl, hbody⟩, ['/'], rfl, rfl⟩, by simp⟩

end Pattern

end DeclCheck.Lexer
