import DeclCheck.Proofs.Token.Sequences

/-!
# Words in a row

Names and types are words: letters, digits and underscores.  A word ends where something
else begins.  So a text that lists words tells them apart, as long as what stands between
two of them begins with no letter, digit or underscore.
-/

namespace DeclCheck.Lexer

/-- One or more letters, digits and underscores. -/
structure IsWord (text : List Char) : Prop where
  ne_nil : text ≠ []
  all : ∀ c ∈ text, isWordChar c = true

theorem isWord_of_identifier {name : String}
    (hspelled : (TokenKind.identifier name).IsSpelled) : IsWord name.toList := by
  have hlexeme : Lexeme (.identifier name) name.toList := hspelled
  generalize hkind : TokenKind.identifier name = kind at hlexeme
  generalize name.toList = text at hlexeme
  cases hlexeme with
  | word hstart hrest =>
      exact ⟨List.cons_ne_nil _ _,
        List.forall_mem_cons.mpr ⟨isWordChar_of_isWordStart hstart, hrest⟩⟩
  | _ => cases hkind

theorem isWord_typeName (type : TypeName) : IsWord type.spelling.toList := by
  rw [TypeName.spelling, String.toList_ofList]
  have hall : type.chars.all isWordChar = true := by cases type <;> decide
  refine ⟨?_, List.all_eq_true.mp hall⟩
  cases type <;> exact List.cons_ne_nil _ _

/-! ## Where a word ends -/

/-- Where two texts begin with words, the words are the same if the texts are. -/
theorem IsWord.append_inj {first second rest other : List Char} (hfirst : IsWord first)
    (hsecond : IsWord second) (hrest : Stops isWordChar rest) (hother : Stops isWordChar other)
    (htext : first ++ rest = second ++ other) : first = second ∧ rest = other := by
  have hword : first = second := by
    rw [← takeWhile_append_of_stops hfirst.all hrest, htext,
      takeWhile_append_of_stops hsecond.all hother]
  rw [hword] at htext
  exact ⟨hword, List.append_cancel_left htext⟩

theorem stops_cons {goesOn : Char → Bool} {mark : Char} (hmark : goesOn mark = false)
    (rest : List Char) : Stops goesOn (mark :: rest) := by
  rintro c ⟨⟩
  exact hmark

/-! ## Words with a separator between them -/

section Separated

variable {mark : Char} {gap : List Char}

/-- With one more separator in front, every word of a list stands behind one. -/
theorem flatMap_separator (separator : List Char) {words : List (List Char)}
    (hne : words ≠ []) :
    words.flatMap (separator ++ ·) = separator ++ separator.intercalate words := by
  induction words with
  | nil => exact absurd rfl hne
  | cons word rest ih =>
      by_cases hlast : rest = []
      · rw [hlast, List.flatMap_singleton, List.intercalate_singleton]
      · rw [List.flatMap_cons, ih hlast, List.intercalate_cons_of_ne_nil hlast,
          List.append_assoc, List.append_assoc]

theorem eq_nil_of_intercalate_eq_nil {separator : List Char} {words : List (List Char)}
    (hwords : ∀ word ∈ words, IsWord word) (htext : separator.intercalate words = []) :
    words = [] := by
  cases words with
  | nil => rfl
  | cons word rest =>
      have hword := (hwords word List.mem_cons_self).ne_nil
      by_cases hlast : rest = []
      · rw [hlast, List.intercalate_singleton] at htext
        exact absurd htext hword
      · rw [List.intercalate_cons_of_ne_nil hlast, List.append_assoc] at htext
        exact absurd (List.append_eq_nil_iff.mp htext).1 hword

variable (hmark : isWordChar mark = false)
include hmark

theorem stops_flatMap (words : List (List Char)) :
    Stops isWordChar (words.flatMap ((mark :: gap) ++ ·)) := by
  cases words with
  | nil => rintro c ⟨⟩
  | cons word words => exact stops_cons hmark _

/-- Behind separators, words are told apart. -/
theorem flatMap_separator_inj {first : List (List Char)} (hfirst : ∀ word ∈ first, IsWord word) :
    ∀ {second : List (List Char)}, (∀ word ∈ second, IsWord word) →
      first.flatMap ((mark :: gap) ++ ·) = second.flatMap ((mark :: gap) ++ ·) →
      first = second := by
  induction first with
  | nil =>
      intro second _ htext
      cases second with
      | nil => rfl
      | cons word words => cases htext
  | cons word words ih =>
      intro second hsecond htext
      cases second with
      | nil => cases htext
      | cons other others =>
          obtain ⟨hword, hwords⟩ := List.forall_mem_cons.mp hfirst
          obtain ⟨hother, hothers⟩ := List.forall_mem_cons.mp hsecond
          simp only [List.flatMap_cons, List.append_assoc] at htext
          obtain ⟨hsame, hrest⟩ := hword.append_inj hother (stops_flatMap hmark words)
            (stops_flatMap hmark others) (List.append_cancel_left htext)
          rw [hsame, ih hwords hothers hrest]

/-- A list of words is told from its text. -/
theorem intercalate_inj {first second : List (List Char)} (hfirst : ∀ word ∈ first, IsWord word)
    (hsecond : ∀ word ∈ second, IsWord word)
    (htext : (mark :: gap).intercalate first = (mark :: gap).intercalate second) :
    first = second := by
  by_cases hnone : first = []
  · rw [hnone] at htext ⊢
    exact (eq_nil_of_intercalate_eq_nil hsecond htext.symm).symm
  · have hother : second ≠ [] := by
      rintro rfl
      exact hnone (eq_nil_of_intercalate_eq_nil hfirst htext)
    apply flatMap_separator_inj hmark hfirst hsecond
    rw [flatMap_separator _ hnone, flatMap_separator _ hother, htext]

end Separated

end DeclCheck.Lexer
