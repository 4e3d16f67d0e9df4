import DeclCheck.Proofs.Token.Lines
import DeclCheck.ValueForm

/-!
# Numbers and strings by their text

Whether a text is a number or is quoted is decided character by character.  For texts
that are made of lexemes this comes to the same as looking at the tokens: such a text is
an unsigned number exactly if it is a single lexeme, that of a number, and it begins and
ends with a quote exactly if the first and the last lexeme are strings.
-/

namespace DeclCheck

namespace TokenKind

def isInteger : TokenKind → Bool
  | integer _ => true
  | _ => false

/-- Whether a token is an integer or a float. -/
def isNumber : TokenKind → Bool
  | integer _ => true
  | float _ => true
  | _ => false

def isString : TokenKind → Bool
  | string _ => true
  | _ => false

theorem isNumber_of_isInteger {kind : TokenKind} (hinteger : kind.isInteger = true) :
    kind.isNumber = true := by
  cases kind with
  | integer text => rfl
  | _ => cases hinteger

theorem isNumber_ofWord (word : List Char) : (ofWord word).isNumber = false := by
  rw [ofWord]
  split
  · rfl
  · split <;> rfl

theorem isString_ofWord (word : List Char) : (ofWord word).isString = false := by
  rw [ofWord]
  split
  · rfl
  · split <;> rfl

end TokenKind

namespace Lexer

theorem IsDigits.exists_head {digits : List Char} (hdigits : IsDigits digits)
    (rest : List Char) : ∃ c more, digits ++ rest = c :: more ∧ c.isDigit = true := by
  obtain ⟨c, more, rfl⟩ := List.exists_cons_of_ne_nil hdigits.ne_nil
  exact ⟨c, more ++ rest, rfl, hdigits.all c List.mem_cons_self⟩

/-- A lexeme starts with a digit exactly if it is a number. -/
theorem Lexeme.exists_head {kind : TokenKind} {text : List Char} (hlexeme : Lexeme kind text) :
    ∃ c rest, text = c :: rest ∧ c.isDigit = kind.isNumber := by
  cases hlexeme with
  | @word c rest hstart hrest =>
      refine ⟨c, rest, rfl, ?_⟩
      rw [TokenKind.isNumber_ofWord]
      cases hdigit : c.isDigit with
      | false => rfl
      | true =>
          rw [isWordStart_of_isDigit hdigit] at hstart
          cases hstart
  | integer hdigits =>
      obtain ⟨c, rest, htext, hdigit⟩ := hdigits.exists_head []
      exact ⟨c, rest, (List.append_nil text).symm.trans htext, hdigit⟩
  | float hdigits _ => exact hdigits.exists_head _
  | string hrun => exact ⟨_, _, rfl, rfl⟩
  | symbol mark => cases mark <;> exact ⟨_, _, rfl, rfl⟩

theorem Lexeme.number_cases {kind : TokenKind} {text : List Char} (hlexeme : Lexeme kind text)
    (hnumber : kind.isNumber = true) :
    (kind = .integer (String.ofList text) ∧ IsDigits text) ∨
      (kind = .float (String.ofList text) ∧
        ∃ digits fraction, text = digits ++ fraction ∧ IsDigits digits ∧ IsFraction fraction) := by
  cases hlexeme with
  | word hstart hrest =>
      rw [TokenKind.isNumber_ofWord] at hnumber
      cases hnumber
  | integer hdigits => exact .inl ⟨rfl, hdigits⟩
  | float hdigits hfraction => exact .inr ⟨rfl, _, _, rfl, hdigits, hfraction⟩
  | _ => cases hnumber

/-- No lexeme starts with a point, and only the signs start with a sign. -/
theorem Lexeme.head_cases {kind : TokenKind} {text : List Char} (hlexeme : Lexeme kind text)
    {c : Char} (hhead : text.head? = some c) :
    c ≠ '.' ∧ (c = '+' ∨ c = '-' → kind = .symbol .plus ∨ kind = .symbol .minus) := by
  obtain ⟨d, rest, htext, hdigit⟩ := hlexeme.exists_head
  obtain rfl : d = c := by simpa [htext] using hhead
  cases hlexeme with
  | word hstart hrest =>
      cases htext
      refine ⟨?_, ?_⟩
      · rintro rfl
        exact absurd hstart (by decide)
      · rintro (rfl | rfl) <;> exact absurd hstart (by decide)
  | string hrun =>
      cases htext
      simp
  | symbol mark => cases mark <;> cases htext <;> simp
  | _ =>
      have hnumber : d.isDigit = true := hdigit
      refine ⟨?_, ?_⟩
      · rintro rfl
        exact absurd hnumber (by decide)
      · rintro (rfl | rfl) <;> exact absurd hnumber (by decide)

theorem Lexeme.isString_of_quote_mem {kind : TokenKind} {text : List Char}
    (hlexeme : Lexeme kind text) (hquote : '"' ∈ text) : kind.isString = true := by
  have hmarks : ∀ mark : Symbol, '"' ∉ mark.chars := by
    intro mark
    cases mark <;> decide
  rcases hlexeme.quoted_or_not_mem rfl (by decide) (by decide) hmarks with
    ⟨_, _, _, rfl⟩ | hnone
  · rfl
  · exact absurd hquote hnone

theorem Lexeme.exists_run {kind : TokenKind} {text : List Char} (hlexeme : Lexeme kind text)
    (hstring : kind.isString = true) : ∃ run, text = '"' :: (run ++ ['"']) := by
  cases hlexeme with
  | word hstart hrest =>
      rw [TokenKind.isString_ofWord] at hstring
      cases hstring
  | string hrun => exact ⟨_, rfl⟩
  | _ => cases hstring

/-- A lexeme begins with a quote exactly if it is a string. -/
theorem Lexeme.head_quote_iff {kind : TokenKind} {text : List Char}
    (hlexeme : Lexeme kind text) : text.head? = some '"' ↔ kind.isString = true := by
  refine ⟨fun hhead => hlexeme.isString_of_quote_mem (List.mem_of_head? hhead), ?_⟩
  intro hstring
  obtain ⟨run, rfl⟩ := hlexeme.exists_run hstring
  rfl

/-- A lexeme ends with a quote exactly if it is a string. -/
theorem Lexeme.last_quote_iff {kind : TokenKind} {text : List Char}
    (hlexeme : Lexeme kind text) : text.getLast? = some '"' ↔ kind.isString = true := by
  refine ⟨fun hlast => hlexeme.isString_of_quote_mem (List.mem_of_getLast? hlast), ?_⟩
  intro hstring
  obtain ⟨run, rfl⟩ := hlexeme.exists_run hstring
  rw [← List.cons_append, List.getLast?_concat]

end Lexer

/-! ## Unsigned numbers -/

namespace ValueForm

open Lexer

theorem isDigits_iff {text : List Char} : isDigits text = true ↔ IsDigits text := by
  rw [isDigits, Bool.and_eq_true, Bool.not_eq_true', List.isEmpty_eq_false_iff, List.all_eq_true]
  exact ⟨fun ⟨hne, hall⟩ => ⟨hne, hall⟩, fun hdigits => ⟨hdigits.ne_nil, hdigits.all⟩⟩

/-- Digits are followed by nothing that is not a digit. -/
theorem isDigits_append_iff {digits rest : List Char} (hdigits : IsDigits digits)
    (hrest : Stops Char.isDigit rest) : isDigits (digits ++ rest) = true ↔ rest = [] := by
  rw [isDigits_iff]
  constructor
  · intro hall
    cases rest with
    | nil => rfl
    | cons c rest =>
        have hdigit := hall.all c (List.mem_append_right _ List.mem_cons_self)
        rw [hrest c rfl] at hdigit
        cases hdigit
  · rintro rfl
    rwa [List.append_nil]

theorem dropSign_of_not_sign {c : Char} {rest : List Char} (hsign : ¬(c = '+' ∨ c = '-')) :
    dropSign (c :: rest) = c :: rest :=
  if_neg hsign

theorem isExponent_append_iff {exponent rest : List Char} (hexponent : IsExponent exponent)
    (hrest : Stops isWordChar rest) : isExponent (exponent ++ rest) = true ↔ rest = [] := by
  have hdigit : Stops Char.isDigit rest := hrest.mono fun _ => isDigit_of_not_wordChar
  cases hexponent with
  | absent =>
      cases rest with
      | nil => simp [isExponent]
      | cons c rest =>
          have hmark : ¬(c = 'e' ∨ c = 'E') := by
            rintro (rfl | rfl) <;> exact absurd (hrest _ rfl) (by decide)
          simp only [not_or] at hmark
          simp [isExponent, hmark]
  | @unsigned mark digits hmark hdigits =>
      obtain ⟨c, more, hhead, hc⟩ := hdigits.exists_head rest
      have hsign : ¬(c = '+' ∨ c = '-') := by
        rintro (rfl | rfl) <;> exact absurd hc (by decide)
      have hdrop : dropSign (digits ++ rest) = digits ++ rest := by
        rw [hhead, dropSign_of_not_sign hsign]
      rw [List.cons_append, isExponent, hdrop, Bool.and_eq_true, Bool.or_eq_true,
        decide_eq_true_eq, decide_eq_true_eq, and_iff_right hmark,
        isDigits_append_iff hdigits hdigit]
  | @signed mark sign digits hmark hsign hdigits =>
      have hdrop : dropSign (sign :: (digits ++ rest)) = digits ++ rest := if_pos hsign
      rw [List.cons_append, List.cons_append, isExponent, hdrop, Bool.and_eq_true,
        Bool.or_eq_true, decide_eq_true_eq, decide_eq_true_eq, and_iff_right hmark,
        isDigits_append_iff hdigits hdigit]

theorem isMagnitude_of_not_digit {c : Char} {rest : List Char} (hdigit : c.isDigit = false)
    (hpoint : c ≠ '.') : isMagnitude (c :: rest) = false := by
  simp only [isMagnitude, List.takeWhile_cons, List.dropWhile_cons, hdigit, Bool.false_eq_true,
    if_false]
  split
  · rename_i heq
    exact absurd (List.cons.inj heq).1 hpoint
  · rfl

theorem dropWhile_append_of_stops {goesOn : Char → Bool} {text rest : List Char}
    (htext : ∀ c ∈ text, goesOn c = true) (hrest : Stops goesOn rest) :
    (text ++ rest).dropWhile goesOn = rest := by
  have hparts := List.takeWhile_append_dropWhile (p := goesOn) (l := text ++ rest)
  rw [takeWhile_append_of_stops htext hrest] at hparts
  exact List.append_cancel_left hparts

theorem isMagnitude_integer {digits rest : List Char} (hdigits : IsDigits digits)
    (hrest : Stops (fun c => isWordChar c || c = '.') rest) :
    isMagnitude (digits ++ rest) = true ↔ rest = [] := by
  have hstops : Stops Char.isDigit rest :=
    hrest.wordChar.mono fun _ => isDigit_of_not_wordChar
  have hexponent := isExponent_append_iff .absent hrest.wordChar
  simp only [isMagnitude, takeWhile_append_of_stops hdigits.all hstops,
    dropWhile_append_of_stops hdigits.all hstops]
  split
  · rename_i fraction
    exact absurd (hrest '.' rfl) (by decide)
  · simpa [hdigits.ne_nil] using hexponent

theorem isMagnitude_float {digits fraction rest : List Char} (hdigits : IsDigits digits)
    (hfraction : IsFraction fraction) (hrest : Stops isWordChar rest) :
    isMagnitude (digits ++ fraction ++ rest) = true ↔ rest = [] := by
  cases hfraction with
  | @intro decimals exponent hdecimals hexponent =>
      have hpoint : Stops Char.isDigit ('.' :: (decimals ++ exponent) ++ rest) := by
        rintro c ⟨⟩
        rfl
      have hstops := hexponent.stops_isDigit hrest
      have htail := dropWhile_append_of_stops hdecimals.all hstops
      simp only [List.append_assoc, isMagnitude, takeWhile_append_of_stops hdigits.all hpoint,
        dropWhile_append_of_stops hdigits.all hpoint]
      simpa [hdigits.ne_nil, htail] using isExponent_append_iff hexponent hrest

/-- A check of texts that, of all texts made of lexemes, lets through exactly the single
lexemes of some kinds. -/
structure Recognizes (form : List Char → Bool) (isLiteral : TokenKind → Bool) : Prop where
  nil : form [] = false
  symbol : ∀ mark, isLiteral (.symbol mark) = false
  append : ∀ {kind : TokenKind} {text rest : List Char}, Lexeme kind text →
    Stops kind.goesOn rest → (form (text ++ rest) = true ↔ isLiteral kind = true ∧ rest = [])

theorem isDigits_recognizes : Recognizes isDigits TokenKind.isInteger where
  nil := rfl
  symbol _ := rfl
  append {kind text rest} hlexeme hrest := by
    cases hnumber : kind.isNumber with
    | false =>
        obtain ⟨c, more, rfl, hdigit⟩ := hlexeme.exists_head
        have hfalse : isDigits (c :: more ++ rest) = false := by
          simp [isDigits, hdigit.trans hnumber]
        have hkind : kind.isInteger = false :=
          Bool.eq_false_iff.mpr fun hinteger =>
            Bool.eq_false_iff.mp hnumber (TokenKind.isNumber_of_isInteger hinteger)
        rw [hfalse, hkind]
        simp
    | true =>
        rcases hlexeme.number_cases hnumber with
          ⟨rfl, hdigits⟩ | ⟨rfl, digits, fraction, rfl, _, hfraction⟩
        · have hstops : Stops Char.isDigit rest :=
            hrest.wordChar.mono fun _ => isDigit_of_not_wordChar
          rw [isDigits_append_iff hdigits hstops]
          exact (and_iff_right rfl).symm
        · -- the point of the fraction is no digit
          cases hfraction
          simp [isDigits, TokenKind.isInteger]

theorem isMagnitude_recognizes : Recognizes isMagnitude TokenKind.isNumber where
  nil := rfl
  symbol _ := rfl
  append {kind text rest} hlexeme hrest := by
    cases hnumber : kind.isNumber with
    | false =>
        obtain ⟨c, more, rfl, hdigit⟩ := hlexeme.exists_head
        have hpoint := (hlexeme.head_cases rfl).1
        rw [List.cons_append, isMagnitude_of_not_digit (hdigit.trans hnumber) hpoint]
        simp
    | true =>
        rw [and_iff_right rfl]
        rcases hlexeme.number_cases hnumber with
          ⟨rfl, hdigits⟩ | ⟨rfl, digits, fraction, rfl, hdigits, hfraction⟩
        · exact isMagnitude_integer hdigits hrest
        · exact isMagnitude_float hdigits hfraction hrest.wordChar

/-! ## Texts of several lexemes -/

theorem spelled_eq_nil_iff {kinds : List TokenKind} (hspelled : ∀ kind ∈ kinds, kind.IsSpelled) :
    spelled kinds = [] ↔ kinds = [] := by
  cases kinds with
  | nil => exact iff_of_true rfl rfl
  | cons kind rest =>
      have hne := (hspelled kind List.mem_cons_self).ne_nil
      rw [spelled_cons, List.append_eq_nil_iff]
      exact iff_of_false (fun hnil => hne hnil.1) (List.cons_ne_nil kind rest)

namespace Recognizes

variable {form : List Char → Bool} {isLiteral : TokenKind → Bool}
  (hform : Recognizes form isLiteral) {kinds : List TokenKind}
  (hspelled : ∀ kind ∈ kinds, kind.IsSpelled) (hapart : kinds.IsChain TokenKind.Apart)
include hform hspelled hapart

theorem spelled_iff :
    form (spelled kinds) = true ↔ ∃ kind, isLiteral kind = true ∧ kinds = [kind] := by
  cases kinds with
  | nil => simp [spelled, hform.nil]
  | cons kind rest =>
      rw [List.forall_mem_cons] at hspelled
      have hstops := stops_spelled hspelled.2 (List.isChain_cons.mp hapart).1
      rw [spelled_cons, hform.append hspelled.1 hstops, spelled_eq_nil_iff hspelled.2]
      simp

/-- With a sign taken away, there may also be a minus before the literal.  A plus is never
read as a sign. -/
theorem signed_iff (hplus : kinds.head? ≠ some (.symbol .plus)) :
    form (dropSign (spelled kinds)) = true ↔
      ∃ kind, isLiteral kind = true ∧ (kinds = [kind] ∨ kinds = [.symbol .minus, kind]) := by
  have hwhole := hform.spelled_iff hspelled hapart
  cases kinds with
  | nil => simp [spelled, dropSign, hform.nil]
  | cons kind rest =>
      rw [List.forall_mem_cons] at hspelled
      by_cases hminus : kind = .symbol .minus
      · subst hminus
        have hdrop : dropSign (spelled (.symbol .minus :: rest)) = spelled rest := by
          rw [spelled_cons]
          rfl
        rw [hdrop, hform.spelled_iff hspelled.2 (List.isChain_cons.mp hapart).2]
        refine exists_congr fun other => and_congr_right fun hother => ?_
        have hne : TokenKind.symbol .minus ≠ other := by
          rintro rfl
          rw [hform.symbol] at hother
          cases hother
        simp [hne]
      · obtain ⟨c, more, htext, _⟩ := hspelled.1.exists_head
        have hsign : ¬(c = '+' ∨ c = '-') := by
          intro hsign
          have hhead : kind.spelling.toList.head? = some c := by rw [htext]; rfl
          rcases (hspelled.1.head_cases hhead).2 hsign with rfl | rfl
          · exact hplus rfl
          · exact hminus rfl
        have hdrop : dropSign (spelled (kind :: rest)) = spelled (kind :: rest) := by
          rw [spelled_cons, htext, List.cons_append, dropSign_of_not_sign hsign]
        rw [hdrop, hwhole]
        simp [hminus]

end Recognizes

section Quoted

variable {kinds : List TokenKind} (hspelled : ∀ kind ∈ kinds, kind.IsSpelled)
include hspelled

theorem head_spelled_iff :
    (spelled kinds).head? = some '"' ↔ ∃ first ∈ kinds.head?, first.isString = true := by
  cases kinds with
  | nil => simp [spelled]
  | cons first rest =>
      have hfirst := hspelled first List.mem_cons_self
      rw [spelled_cons, List.head?_append_of_ne_nil _ hfirst.ne_nil, hfirst.head_quote_iff]
      simp

theorem last_spelled_iff :
    (spelled kinds).getLast? = some '"' ↔ ∃ last ∈ kinds.getLast?, last.isString = true := by
  rcases List.eq_nil_or_concat kinds with rfl | ⟨front, last, rfl⟩
  · simp [spelled]
  · rw [List.concat_eq_append] at hspelled ⊢
    have hlast := hspelled last (List.mem_append_right front (List.mem_singleton_self last))
    have htext : spelled (front ++ [last]) = spelled front ++ last.spelling.toList := by
      simp [spelled]
    rw [htext, List.getLast?_append_of_ne_nil _ hlast.ne_nil, hlast.last_quote_iff]
    simp

/-- A text made of lexemes begins and ends with a quote exactly if the first and the last
lexeme are strings. -/
theorem isQuoted_spelled_iff :
    isQuoted (spelled kinds) = true ↔
      (∃ first ∈ kinds.head?, first.isString = true) ∧
        ∃ last ∈ kinds.getLast?, last.isString = true := by
  rw [isQuoted, Bool.and_eq_true, Bool.and_eq_true, decide_eq_true_eq, decide_eq_true_eq,
    decide_eq_true_eq, head_spelled_iff hspelled, last_spelled_iff hspelled, and_assoc]
  refine and_iff_right_of_imp ?_
  rintro ⟨⟨first, hfirst, hstring⟩, _⟩
  -- the opening and the closing quote of the first string are two
  obtain ⟨rest, rfl⟩ := List.head?_eq_some_iff.mp hfirst
  obtain ⟨run, hrun⟩ := (hspelled first List.mem_cons_self).exists_run hstring
  rw [spelled_cons, hrun, List.length_append, List.length_cons, List.length_append,
    List.length_singleton]
  omega

end Quoted

end ValueForm

end DeclCheck
