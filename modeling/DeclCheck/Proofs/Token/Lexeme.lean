import DeclCheck.Proofs.Token.Order

/-!
# The lexemes of tokens

Which texts spell which tokens, said without scanning.  The scanner cuts lexemes off
a text, and it cuts off a whole lexeme wherever the next character does not go on
with it.
-/

namespace DeclCheck

/-- The character would make of the symbol a longer one, or a comment. -/
def Symbol.goesOn (mark : Symbol) (c : Char) : Bool :=
  match mark with
  | .assign | .bang | .less | .greater => c = '='
  | .slash => c = '/' || c = '*'
  | _ => false

/-- The character may go on with a token of the kind. -/
def TokenKind.goesOn : TokenKind → Char → Bool
  | .symbol mark, c => mark.goesOn c
  | .string _, _ => false
  | _, c => Lexer.isWordChar c || c = '.'

namespace Lexer

/-- One or more decimal digits. -/
structure IsDigits (text : List Char) : Prop where
  ne_nil : text ≠ []
  all : ∀ c ∈ text, c.isDigit = true

/-- Nothing, or the letter, the sign and the digits of an exponent. -/
inductive IsExponent : List Char → Prop
  | absent : IsExponent []
  | unsigned {mark : Char} {digits : List Char} (hmark : mark = 'e' ∨ mark = 'E')
      (hdigits : IsDigits digits) : IsExponent (mark :: digits)
  | signed {mark sign : Char} {digits : List Char} (hmark : mark = 'e' ∨ mark = 'E')
      (hsign : sign = '+' ∨ sign = '-') (hdigits : IsDigits digits) :
      IsExponent (mark :: sign :: digits)

/-- The point and the digits of a fraction, and its exponent. -/
inductive IsFraction : List Char → Prop
  | intro {digits exponent : List Char} (hdigits : IsDigits digits)
      (hexponent : IsExponent exponent) : IsFraction ('.' :: (digits ++ exponent))

/-- What may stand between two quotes. -/
inductive IsQuotedRun : List Char → Prop
  | nil : IsQuotedRun []
  | plain {c : Char} {run : List Char} (hquote : c ≠ '"') (hescape : c ≠ '\\')
      (hnewline : c ≠ '\n') (hrun : IsQuotedRun run) : IsQuotedRun (c :: run)
  | escaped {c : Char} {run : List Char} (hnewline : c ≠ '\n')
      (hrun : IsQuotedRun run) : IsQuotedRun ('\\' :: c :: run)

/-- `Lexeme kind text` says that the text spells a token of the kind. -/
inductive Lexeme : TokenKind → List Char → Prop
  | word {c : Char} {rest : List Char} (hstart : isWordStart c = true)
      (hrest : ∀ d ∈ rest, isWordChar d = true) :
      Lexeme (.ofWord (c :: rest)) (c :: rest)
  | integer {digits : List Char} (hdigits : IsDigits digits) :
      Lexeme (.integer (String.ofList digits)) digits
  | float {digits fraction : List Char} (hdigits : IsDigits digits)
      (hfraction : IsFraction fraction) :
      Lexeme (.float (String.ofList (digits ++ fraction))) (digits ++ fraction)
  | string {run : List Char} (hrun : IsQuotedRun run) :
      Lexeme (.string (String.ofList ('"' :: (run ++ ['"'])))) ('"' :: (run ++ ['"']))
  | symbol (mark : Symbol) : Lexeme (.symbol mark) mark.chars

/-! ## Characters -/

theorem isWordChar_of_isDigit {c : Char} (hdigit : c.isDigit = true) :
    isWordChar c = true := by
  simp [isWordChar, Char.isAlphanum, hdigit]

theorem isAlpha_eq_ranges (c : Char) :
    c.isAlpha = (decide (65 ≤ c.val ∧ c.val ≤ 90) ||
      decide (97 ≤ c.val) && decide (c.val ≤ 122)) := rfl

theorem isWordStart_of_isDigit {c : Char} (hdigit : c.isDigit = true) :
    isWordStart c = false := by
  have hunderscore : c ≠ '_' := by
    rintro rfl
    exact absurd hdigit (by decide)
  simp only [Char.isDigit, Bool.and_eq_true, decide_eq_true_eq, ge_iff_le,
    UInt32.le_iff_toNat_le] at hdigit
  simp only [isWordStart, isAlpha_eq_ranges, Bool.or_eq_false_iff, Bool.and_eq_false_iff,
    decide_eq_false_iff_not, hunderscore, not_false_iff, and_true, UInt32.le_iff_toNat_le]
  simp at hdigit ⊢
  omega

theorem isBlank_of_isWordChar {c : Char} (hword : isWordChar c = true) :
    isBlank c = false := by
  cases hblank : isBlank c with
  | false => rfl
  | true =>
      simp only [isBlank, Bool.or_eq_true, decide_eq_true_eq] at hblank
      rcases hblank with (((rfl | rfl) | rfl) | rfl) | rfl <;> exact absurd hword (by decide)

theorem ne_slash_of_isWordChar {c : Char} (hword : isWordChar c = true) : c ≠ '/' := by
  rintro rfl
  exact absurd hword (by decide)

/-! ## A whole lexeme is cut off -/

/-- None of the characters that may come next has the property. -/
def Stops (goesOn : Char → Bool) (rest : List Char) : Prop :=
  ∀ c, rest.head? = some c → goesOn c = false

theorem Stops.mono {goesOn stronger : Char → Bool} {rest : List Char}
    (hstops : Stops goesOn rest)
    (hstronger : ∀ c, goesOn c = false → stronger c = false) : Stops stronger rest :=
  fun c hc => hstronger c (hstops c hc)

theorem Stops.wordChar {rest : List Char}
    (hstops : Stops (fun c => isWordChar c || c = '.') rest) : Stops isWordChar rest :=
  hstops.mono fun _ hc => (Bool.or_eq_false_iff.mp hc).1

theorem takeWhile_append_of_stops {goesOn : Char → Bool} {text rest : List Char}
    (htext : ∀ c ∈ text, goesOn c = true) (hrest : Stops goesOn rest) :
    (text ++ rest).takeWhile goesOn = text := by
  have hnone : rest.takeWhile goesOn = [] := by
    cases rest with
    | nil => rfl
    | cons c rest => simp [hrest c rfl]
  rw [List.takeWhile_append_of_pos htext, hnone, List.append_nil]

theorem digitCount_append {digits rest : List Char} (hdigits : IsDigits digits)
    (hrest : Stops Char.isDigit rest) : digitCount (digits ++ rest) = digits.length := by
  rw [digitCount, takeWhile_append_of_stops hdigits.all hrest]

theorem signLength_digits {digits : List Char} (hdigits : IsDigits digits)
    (rest : List Char) : signLength (digits ++ rest) = 0 := by
  cases digits with
  | nil => exact absurd rfl hdigits.ne_nil
  | cons c digits =>
      have hdigit := hdigits.all c List.mem_cons_self
      have hsign : ¬(c = '+' ∨ c = '-') := by
        rintro (rfl | rfl) <;> exact absurd hdigit (by decide)
      rw [List.cons_append, signLength, if_neg hsign]

theorem isDigit_of_not_wordChar {c : Char} (hword : isWordChar c = false) :
    c.isDigit = false := by
  cases hdigit : c.isDigit with
  | false => rfl
  | true => rw [isWordChar_of_isDigit hdigit] at hword; cases hword

theorem exponentLength_append {exponent rest : List Char} (hexponent : IsExponent exponent)
    (hrest : Stops isWordChar rest) :
    exponentLength (exponent ++ rest) = exponent.length := by
  have hdigit : Stops Char.isDigit rest := hrest.mono fun _ => isDigit_of_not_wordChar
  cases hexponent with
  | absent =>
      cases rest with
      | nil => rfl
      | cons c rest =>
          have hmark : ¬(c = 'e' ∨ c = 'E') := by
            rintro (rfl | rfl) <;> exact absurd (hrest _ rfl) (by decide)
          simp [exponentLength, hmark]
  | @unsigned mark digits hmark hdigits =>
      have hcount := digitCount_append hdigits hdigit
      have hlength := List.length_pos_iff.mpr hdigits.ne_nil
      simp only [List.cons_append, exponentLength, signLength_digits hdigits, List.drop_zero,
        hcount, hmark, true_and, Nat.ne_of_gt hlength, ne_eq, not_false_iff, if_true,
        List.length_cons]
      omega
  | @signed mark sign digits hmark hsign hdigits =>
      have hcount := digitCount_append hdigits hdigit
      have hlength := List.length_pos_iff.mpr hdigits.ne_nil
      simp only [List.cons_append, exponentLength, signLength, hsign, if_true,
        List.drop_succ_cons, List.drop_zero, hcount, hmark, true_and,
        Nat.ne_of_gt hlength, ne_eq, not_false_iff, List.length_cons]
      omega

/-- Neither an exponent nor what ends a number starts with a digit. -/
theorem IsExponent.stops_isDigit {exponent rest : List Char} (hexponent : IsExponent exponent)
    (hrest : Stops isWordChar rest) : Stops Char.isDigit (exponent ++ rest) := by
  cases hexponent with
  | absent => exact hrest.mono fun _ => isDigit_of_not_wordChar
  | unsigned hmark hdigits =>
      rintro c ⟨⟩
      rcases hmark with rfl | rfl <;> rfl
  | signed hmark hsign hdigits =>
      rintro c ⟨⟩
      rcases hmark with rfl | rfl <;> rfl

theorem fractionLength_append {fraction rest : List Char} (hfraction : IsFraction fraction)
    (hrest : Stops isWordChar rest) :
    fractionLength (fraction ++ rest) = fraction.length := by
  obtain ⟨hdigits, hexponent⟩ := hfraction
  rename_i digits exponent
  have hcount := digitCount_append hdigits (hexponent.stops_isDigit hrest)
  have hlength := List.length_pos_iff.mpr hdigits.ne_nil
  have hexponentLength := exponentLength_append hexponent hrest
  simp only [List.cons_append, List.append_assoc, fractionLength, hcount, true_and,
    Nat.ne_of_gt hlength, ne_eq, not_false_iff, if_true, List.drop_left, hexponentLength,
    List.length_cons, List.length_append]
  omega

theorem fractionLength_of_stops {rest : List Char}
    (hrest : Stops (fun c => isWordChar c || c = '.') rest) : fractionLength rest = 0 := by
  cases rest with
  | nil => rfl
  | cons c rest =>
      have hpoint : c ≠ '.' := by
        rintro rfl
        exact absurd (hrest _ rfl) (by decide)
      simp [fractionLength, hpoint]

theorem quotedLength_append {run : List Char} (hrun : IsQuotedRun run) (rest : List Char) :
    quotedLength (run ++ '"' :: rest) = run.length := by
  induction hrun with
  | nil => cases rest <;> simp [quotedLength]
  | @plain c run hquote hescape hnewline hrun ih =>
      cases hmore : run ++ '"' :: rest with
      | nil => simp at hmore
      | cons d more =>
          rw [hmore] at ih
          simp only [List.cons_append, hmore, quotedLength, hescape, hquote, hnewline,
            or_self, if_false, ih, List.length_cons]
          omega
  | @escaped c run hnewline hrun ih =>
      simp only [List.cons_append, quotedLength, hnewline, if_true, if_false, ih,
        List.length_cons]
      omega

theorem quoted_append (run rest : List Char) :
    '"' :: (run ++ '"' :: rest) = ('"' :: (run ++ ['"'])) ++ rest := by
  simp

theorem take_quoted (run rest : List Char) :
    ('"' :: (run ++ '"' :: rest)).take (run.length + 2) = '"' :: (run ++ ['"']) := by
  have hlength : run.length + 2 = ('"' :: (run ++ ['"'])).length := by simp
  rw [hlength, quoted_append run rest, List.take_left]

/-! ### One equation of the scanner for each kind of lexeme -/

theorem scan_word {c : Char} {rest : List Char} (hstart : isWordStart c = true) :
    scan (c :: rest) =
      (.token (.ofWord ((c :: rest).takeWhile isWordChar)),
        ((c :: rest).takeWhile isWordChar).length) := by
  have hword : isWordChar c = true := isWordChar_of_isWordStart hstart
  simp [scan, isBlank_of_isWordChar hword, ne_slash_of_isWordChar hword, hstart]

theorem scan_number {c : Char} {rest : List Char} (hdigit : c.isDigit = true) :
    scan (c :: rest) = scanNumber (c :: rest) := by
  have hword := isWordChar_of_isDigit hdigit
  simp [scan, isBlank_of_isWordChar hword, ne_slash_of_isWordChar hword,
    isWordStart_of_isDigit hdigit, hdigit]

theorem scan_quote (rest : List Char) : scan ('"' :: rest) = scanQuoted ('"' :: rest) := by
  simp [scan, isBlank, isWordStart]

theorem find?_symbol (mark : Symbol) {rest : List Char} (hrest : Stops mark.goesOn rest) :
    Symbol.all.find? (·.chars.isPrefixOf (mark.chars ++ rest)) = some mark := by
  cases rest with
  | nil => cases mark <;> rfl
  | cons c rest =>
      have hstops := hrest c rfl
      -- only an equals sign makes a symbol a longer one
      by_cases hequal : '=' = c
      · subst hequal
        cases mark <;> simp_all [Symbol.all, Symbol.chars, Symbol.goesOn]
      · cases mark <;> simp [Symbol.all, Symbol.chars, List.isPrefixOf, hequal]

theorem scan_symbol (mark : Symbol) {rest : List Char} (hrest : Stops mark.goesOn rest) :
    scan (mark.chars ++ rest) = (.token (.symbol mark), mark.chars.length) := by
  have hfind := find?_symbol mark hrest
  cases mark with
  | slash =>
      have hcomment : rest.head? ≠ some '/' ∧ rest.head? ≠ some '*' := by
        constructor
        · intro hhead
          exact absurd (hrest _ hhead) (by decide)
        · intro hhead
          exact absurd (hrest _ hhead) (by decide)
      simp only [Symbol.chars, List.cons_append, List.nil_append] at hfind ⊢
      simp [scan, hfind, isBlank, isWordStart, Symbol.chars, hcomment]
  | _ =>
      simp only [Symbol.chars, List.cons_append, List.nil_append] at hfind ⊢
      simp [scan, hfind, isBlank, isWordStart, Symbol.chars]

theorem goesOn_ofWord (word : List Char) :
    (TokenKind.ofWord word).goesOn = fun c => isWordChar c || c = '.' := by
  rw [TokenKind.ofWord]
  split
  · rfl
  · split <;> rfl

theorem scanNumber_append {digits fraction rest : List Char} (hdigits : IsDigits digits)
    (hstops : Stops Char.isDigit (fraction ++ rest))
    (hfraction : fractionLength (fraction ++ rest) = fraction.length) :
    scanNumber (digits ++ (fraction ++ rest)) =
      (.token (if fraction.length = 0 then .integer (String.ofList (digits ++ fraction))
          else .float (String.ofList (digits ++ fraction))),
        digits.length + fraction.length) := by
  have htake : (digits ++ (fraction ++ rest)).take (digits.length + fraction.length) =
      digits ++ fraction := by
    rw [← List.length_append, ← List.append_assoc, List.take_left]
  simp only [scanNumber, digitCount_append hdigits hstops, List.drop_left, hfraction, htake]

/-- A lexeme is cut off as a whole where the next character does not go on with
it. -/
theorem Lexeme.scan_append {kind : TokenKind} {text rest : List Char}
    (hlexeme : Lexeme kind text) (hrest : Stops kind.goesOn rest) :
    scan (text ++ rest) = (.token kind, text.length) := by
  cases hlexeme with
  | @word c text hstart htext =>
      rw [goesOn_ofWord] at hrest
      have hword : ∀ d ∈ c :: text, isWordChar d = true :=
        List.forall_mem_cons.mpr ⟨isWordChar_of_isWordStart hstart, htext⟩
      have htake := takeWhile_append_of_stops hword hrest.wordChar
      rw [List.cons_append] at htake ⊢
      rw [scan_word hstart, htake]
  | integer hdigits =>
      have hstops : Stops Char.isDigit rest :=
        hrest.wordChar.mono fun _ => isDigit_of_not_wordChar
      have hnumber : scanNumber (text ++ ([] ++ rest)) = _ :=
        scanNumber_append hdigits hstops (fractionLength_of_stops hrest)
      cases text with
      | nil => exact absurd rfl hdigits.ne_nil
      | cons c text =>
          rw [List.cons_append, scan_number (hdigits.all c List.mem_cons_self)]
          simpa using hnumber
  | @float digits fraction hdigits hfraction =>
      have hpoint : Stops Char.isDigit (fraction ++ rest) := by
        cases hfraction
        rintro c ⟨⟩
        rfl
      have hlength : fraction.length ≠ 0 := by
        cases hfraction
        exact Nat.succ_ne_zero _
      have hnumber := scanNumber_append hdigits hpoint
        (fractionLength_append hfraction hrest.wordChar)
      rw [if_neg hlength] at hnumber
      cases digits with
      | nil => exact absurd rfl hdigits.ne_nil
      | cons c digits =>
          rw [List.append_assoc, List.cons_append,
            scan_number (hdigits.all c List.mem_cons_self), ← List.cons_append, hnumber,
            List.length_append]
  | @string run hrun =>
      have hlength := quotedLength_append hrun rest
      have hclosed : (run ++ '"' :: rest).drop run.length = '"' :: rest := List.drop_left
      simp only [List.cons_append, List.append_assoc, List.nil_append, scan_quote,
        scanQuoted, List.drop_succ_cons, List.drop_zero, hlength, hclosed, List.head?_cons,
        if_true, take_quoted, List.length_cons, List.length_append, List.length_nil]
  | symbol mark => exact scan_symbol mark hrest

theorem spelling_ofWord (word : List Char) :
    (TokenKind.ofWord word).spelling = String.ofList word := by
  rw [TokenKind.ofWord]
  split
  · rename_i name hname
    have hchars := List.find?_some hname
    rw [← eq_of_beq hchars]
    rfl
  · split
    · rename_i name hname
      have hchars := List.find?_some hname
      rw [← eq_of_beq hchars]
      rfl
    · rfl

theorem Lexeme.spelling {kind : TokenKind} {text : List Char}
    (hlexeme : Lexeme kind text) : kind.spelling.toList = text := by
  cases hlexeme with
  | word hstart hrest => rw [spelling_ofWord, String.toList_ofList]
  | _ => exact String.toList_ofList

/-! ## What is cut off is a lexeme -/

/-- Where digits are counted, that many digits stand. -/
theorem exists_digits {text : List Char} (hcount : digitCount text ≠ 0) :
    ∃ digits rest, text = digits ++ rest ∧ IsDigits digits ∧
      digits.length = digitCount text := by
  refine ⟨text.takeWhile Char.isDigit, text.dropWhile Char.isDigit,
    List.takeWhile_append_dropWhile.symm, ⟨?_, ?_⟩, rfl⟩
  · exact List.ne_nil_of_length_pos (Nat.pos_of_ne_zero hcount)
  · exact List.all_eq_true.mp List.all_takeWhile

theorem exists_exponent (text : List Char) :
    ∃ exponent rest, text = exponent ++ rest ∧ IsExponent exponent ∧
      exponent.length = exponentLength text := by
  cases text with
  | nil => exact ⟨[], [], rfl, .absent, rfl⟩
  | cons mark text =>
      by_cases hmark : (mark = 'e' ∨ mark = 'E') ∧
          digitCount (text.drop (signLength text)) ≠ 0
      · obtain ⟨digits, rest, htext, hdigits, hlength⟩ := exists_digits hmark.2
        have hcount : exponentLength (mark :: text) =
            1 + signLength text + digitCount (text.drop (signLength text)) :=
          if_pos hmark
        cases text with
        | nil => simp [signLength, digitCount] at hmark
        | cons sign text =>
            by_cases hsign : sign = '+' ∨ sign = '-'
            · have hone : signLength (sign :: text) = 1 := if_pos hsign
              rw [hone] at hcount hlength htext
              rw [List.drop_succ_cons, List.drop_zero] at htext
              refine ⟨mark :: sign :: digits, rest, by rw [htext]; rfl,
                .signed hmark.1 hsign hdigits, ?_⟩
              rw [hcount, ← hlength, List.length_cons, List.length_cons]
              omega
            · have hzero : signLength (sign :: text) = 0 := if_neg hsign
              rw [hzero] at hcount hlength htext
              rw [List.drop_zero] at htext
              refine ⟨mark :: digits, rest, by rw [htext]; rfl,
                .unsigned hmark.1 hdigits, ?_⟩
              rw [hcount, ← hlength, List.length_cons]
              omega
      · exact ⟨[], mark :: text, rfl, .absent, (if_neg hmark).symm⟩

theorem exists_fraction {text : List Char} (hcount : fractionLength text ≠ 0) :
    ∃ fraction rest, text = fraction ++ rest ∧ IsFraction fraction ∧
      fraction.length = fractionLength text := by
  cases text with
  | nil => exact absurd rfl hcount
  | cons point text =>
      by_cases hpoint : point = '.' ∧ digitCount text ≠ 0
      · obtain ⟨digits, more, htext, hdigits, hlength⟩ := exists_digits hpoint.2
        obtain ⟨exponent, rest, hmore, hexponent, hexponentLength⟩ := exists_exponent more
        have hvalue : fractionLength (point :: text) =
            1 + digitCount text + exponentLength (text.drop (digitCount text)) :=
          if_pos hpoint
        have hdrop : text.drop (digitCount text) = more := by
          rw [← hlength, htext, List.drop_left]
        refine ⟨'.' :: (digits ++ exponent), rest, ?_, .intro hdigits hexponent, ?_⟩
        · rw [hpoint.1, htext, hmore, List.cons_append, List.append_assoc]
        · rw [hvalue, hdrop, ← hlength, ← hexponentLength, List.length_cons,
            List.length_append]
          omega
      · exact absurd (if_neg hpoint) hcount

theorem exists_quotedRun (text : List Char) :
    ∃ run rest, text = run ++ rest ∧ IsQuotedRun run ∧ run.length = quotedLength text := by
  induction text using quotedLength.induct with
  | case1 => exact ⟨[], [], rfl, .nil, rfl⟩
  | case2 c hstop => exact ⟨[], [c], rfl, .nil, (if_pos hstop).symm⟩
  | case3 c hplain =>
      simp only [not_or] at hplain
      refine ⟨[c], [], rfl, .plain hplain.1 hplain.2.1 hplain.2.2 .nil, ?_⟩
      simp [quotedLength, hplain]
  | case4 rest => exact ⟨[], _, rfl, .nil, by simp [quotedLength]⟩
  | case5 d rest hnewline ih =>
      obtain ⟨run, more, rfl, hrun, hlength⟩ := ih
      refine ⟨'\\' :: d :: run, more, rfl, .escaped hnewline hrun, ?_⟩
      simp only [quotedLength, hnewline, if_true, if_false, ← hlength, List.length_cons]
      omega
  | case6 c d rest hescape hstop =>
      exact ⟨[], _, rfl, .nil, by simp [quotedLength, hescape, hstop]⟩
  | case7 c d rest hescape hplain ih =>
      obtain ⟨run, more, htext, hrun, hlength⟩ := ih
      simp only [not_or] at hplain
      refine ⟨c :: run, more, by rw [htext]; rfl,
        .plain hplain.1 hescape hplain.2 hrun, ?_⟩
      simp only [quotedLength, hescape, hplain, or_self, if_false, ← hlength,
        List.length_cons]
      omega

/-- `Cuts text kind length` says that the text starts with a lexeme of the kind that
has the given length. -/
def Cuts (text : List Char) (kind : TokenKind) (length : Nat) : Prop :=
  ∃ lexeme rest, text = lexeme ++ rest ∧ Lexeme kind lexeme ∧ lexeme.length = length

theorem cuts_word {c : Char} {rest : List Char} (hstart : isWordStart c = true) :
    Cuts (c :: rest) (.ofWord ((c :: rest).takeWhile isWordChar))
      ((c :: rest).takeWhile isWordChar).length := by
  have htake : (c :: rest).takeWhile isWordChar = c :: rest.takeWhile isWordChar := by
    rw [List.takeWhile_cons, if_pos (isWordChar_of_isWordStart hstart)]
  rw [htake]
  refine ⟨c :: rest.takeWhile isWordChar, rest.dropWhile isWordChar, ?_, ?_, rfl⟩
  · rw [List.cons_append, List.takeWhile_append_dropWhile]
  · exact .word hstart (List.all_eq_true.mp List.all_takeWhile)

theorem cuts_number {text : List Char} (hcount : digitCount text ≠ 0)
    {kind : TokenKind} {length : Nat} (hscan : scanNumber text = (.token kind, length)) :
    Cuts text kind length := by
  obtain ⟨digits, more, rfl, hdigits, hlength⟩ := exists_digits hcount
  simp only [scanNumber, ← hlength, List.drop_left] at hscan
  by_cases hfraction : fractionLength more = 0
  · rw [hfraction, if_pos rfl, Nat.add_zero, List.take_left] at hscan
    cases hscan
    exact ⟨digits, more, rfl, .integer hdigits, rfl⟩
  · obtain ⟨fraction, rest, rfl, hisFraction, hfractionLength⟩ := exists_fraction hfraction
    rw [if_neg hfraction, ← hfractionLength, ← List.length_append, ← List.append_assoc,
      List.take_left] at hscan
    cases hscan
    exact ⟨digits ++ fraction, rest, (List.append_assoc ..).symm,
      .float hdigits hisFraction, rfl⟩

theorem cuts_quoted {text : List Char} {kind : TokenKind} {length : Nat}
    (hscan : scanQuoted ('"' :: text) = (.token kind, length)) :
    Cuts ('"' :: text) kind length := by
  obtain ⟨run, more, rfl, hrun, hlength⟩ := exists_quotedRun text
  simp only [scanQuoted, List.drop_succ_cons, List.drop_zero, ← hlength,
    List.drop_left] at hscan
  split at hscan
  · rename_i hclosed
    cases more with
    | nil => cases hclosed
    | cons quote rest =>
        cases hclosed
        rw [take_quoted] at hscan
        cases hscan
        exact ⟨'"' :: (run ++ ['"']), rest, quoted_append run rest, .string hrun, by simp⟩
  · cases hscan

/-- A token at the head of a text is a lexeme that the text starts with. -/
theorem cuts_of_scan {text : List Char} {kind : TokenKind} {length : Nat}
    (hscan : scan text = (.token kind, length)) : Cuts text kind length := by
  cases found_of_scan (ne_nil_of_scan hscan (by simp)) hscan with
  | word rest hstart => exact cuts_word hstart
  | number hdigit hanswer =>
      exact cuts_number (by simp [digitCount, hdigit]) hanswer
  | quoted hanswer => exact cuts_quoted hanswer
  | symbol hcomment hmark =>
      have hstarts := List.find?_some hmark
      obtain ⟨rest, hrest⟩ := List.isPrefixOf_iff_prefix.mp hstarts
      exact ⟨_, rest, hrest.symm, .symbol _, rfl⟩

end Lexer

end DeclCheck
