import DeclCheck.Token.Lexer

/-!
# What one step of the scanner can find

The scanner asks one question after the other about the head of a text.  `Found` lists
the answers, each with what had to hold for the scanner to come to it, so that what is
known of a step follows from nine cases.
-/

namespace DeclCheck.Lexer

/-- `Found text answer` says how the scanner comes to the answer that it gives for the
text. -/
inductive Found : List Char → Reading × Nat → Prop
  | blanks {c : Char} (rest : List Char) (hblank : isBlank c = true) :
      Found (c :: rest) (.layout, ((c :: rest).takeWhile isBlank).length)
  | lineComment (body : List Char) :
      Found ('/' :: '/' :: body)
        (.layout, (('/' :: '/' :: body).takeWhile (· ≠ '\n')).length)
  | blockComment {body : List Char} {length : Nat}
      (hclosed : commentLength body = some length) :
      Found ('/' :: '*' :: body) (.layout, length + 2)
  | openComment {body : List Char} (hopen : commentLength body = none) :
      Found ('/' :: '*' :: body) (.unreadable, ('/' :: '*' :: body).length)
  | word {c : Char} (rest : List Char) (hstart : isWordStart c = true) :
      Found (c :: rest)
        (.token (.ofWord ((c :: rest).takeWhile isWordChar)),
          ((c :: rest).takeWhile isWordChar).length)
  | number {c : Char} {rest : List Char} {answer : Reading × Nat}
      (hdigit : c.isDigit = true) (hanswer : scanNumber (c :: rest) = answer) :
      Found (c :: rest) answer
  | quoted {rest : List Char} {answer : Reading × Nat}
      (hanswer : scanQuoted ('"' :: rest) = answer) : Found ('"' :: rest) answer
  | symbol {c : Char} {rest : List Char} {mark : Symbol}
      (hcomment : ¬(c = '/' ∧ (rest.head? = some '/' ∨ rest.head? = some '*')))
      (hmark : Symbol.all.find? (·.chars.isPrefixOf (c :: rest)) = some mark) :
      Found (c :: rest) (.token (.symbol mark), mark.chars.length)
  | stray {c : Char} {rest : List Char} (hblank : isBlank c = false)
      (hstart : isWordStart c = false) (hdigit : c.isDigit = false) (hquote : c ≠ '"')
      (hmark : Symbol.all.find? (·.chars.isPrefixOf (c :: rest)) = none) :
      Found (c :: rest) (.unreadable, 1)

theorem found_scan {text : List Char} (hne : text ≠ []) : Found text (scan text) := by
  cases text with
  | nil => exact absurd rfl hne
  | cons c rest =>
      rw [scan]
      split
      · exact .blanks rest ‹_›
      rename_i hblank
      split
      · rename_i hslashes
        obtain ⟨rfl, hslash⟩ := hslashes
        obtain ⟨body, rfl⟩ := List.head?_eq_some_iff.mp hslash
        exact .lineComment body
      rename_i hslashes
      split
      · rename_i hopens
        obtain ⟨rfl, hstar⟩ := hopens
        obtain ⟨body, rfl⟩ := List.head?_eq_some_iff.mp hstar
        rw [List.drop_succ_cons, List.drop_zero]
        split
        · exact .blockComment ‹_›
        · exact .openComment ‹_›
      rename_i hopens
      split
      · exact .word rest ‹_›
      rename_i hstart
      split
      · exact .number ‹_› rfl
      rename_i hdigit
      split
      · rename_i hquote
        subst hquote
        exact .quoted rfl
      rename_i hquote
      split
      · refine .symbol ?_ ‹_›
        rintro ⟨hslash, hnext | hnext⟩
        · exact hslashes ⟨hslash, hnext⟩
        · exact hopens ⟨hslash, hnext⟩
      · exact .stray (eq_false_of_ne_true hblank)
          (eq_false_of_ne_true hstart) (eq_false_of_ne_true hdigit)
          hquote ‹_›

/-- An answer that is known is found in one of the nine ways. -/
theorem found_of_scan {text : List Char} {answer : Reading × Nat} (hne : text ≠ [])
    (hscan : scan text = answer) : Found text answer :=
  hscan ▸ found_scan hne

/-- Nothing is found in the empty text but layout. -/
theorem ne_nil_of_scan {text : List Char} {reading : Reading} {length : Nat}
    (hscan : scan text = (reading, length)) (hreading : reading ≠ .layout) :
    text ≠ [] := by
  rintro rfl
  cases hscan
  exact hreading rfl

end DeclCheck.Lexer
