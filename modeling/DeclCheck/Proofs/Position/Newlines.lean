import DeclCheck.Proofs.Position
import Mathlib.Data.List.Sort
import Mathlib.Data.Prod.Lex

/-!
# Positions and newlines

A table of lines is made from characters, but offsets count bytes.  No byte of a longer
character looks like a newline, so lines start right after the newline bytes of the text.
The line of an offset therefore counts the newline bytes before it, the column counts
from the last of them, and later offsets have later positions.
-/

namespace DeclCheck

/-! ## Newline bytes -/

/-- The bytes of a text in UTF-8. -/
def utf8Bytes (text : List Char) : List UInt8 :=
  text.flatMap String.utf8EncodeChar

def newlineByte : UInt8 := 10

/-- The offsets of the newline bytes before an offset, in increasing order. -/
def newlinesBefore (text : List Char) (offset : Nat) : List Nat :=
  (List.range offset).filter fun place => (utf8Bytes text)[place]? = some newlineByte

/-- Where the line of an offset starts: after the last newline byte before the offset,
or at the start of the text. -/
def lineStart (text : List Char) (offset : Nat) : Nat :=
  match (newlinesBefore text offset).getLast? with
  | some newline => newline + 1
  | none => 0

/-- All bytes of a character outside ASCII have their highest bit set. -/
theorem le_toNat_of_mem_utf8EncodeChar {c : Char} (hlong : 127 < c.val.toNat) :
    ∀ byte ∈ String.utf8EncodeChar c, 128 ≤ byte.toNat := by
  rw [String.utf8EncodeChar, if_neg (Nat.not_le.mpr hlong)]
  split
  · simp only [List.forall_mem_cons, UInt8.toNat_ofNat']
    refine ⟨?_, ?_, List.forall_mem_nil _⟩ <;> omega
  · split
    · simp only [List.forall_mem_cons, UInt8.toNat_ofNat']
      refine ⟨?_, ?_, ?_, List.forall_mem_nil _⟩ <;> omega
    · simp only [List.forall_mem_cons, UInt8.toNat_ofNat']
      refine ⟨?_, ?_, ?_, ?_, List.forall_mem_nil _⟩ <;> omega

/-- The newline is the only character that has a newline byte. -/
theorem getElem?_utf8EncodeChar_eq_newline_iff {c : Char} {place : Nat} :
    (String.utf8EncodeChar c)[place]? = some newlineByte ↔ c = '\n' ∧ place = 0 := by
  constructor
  · intro hbyte
    have hshort : c.val.toNat ≤ 127 := by
      by_contra hlong
      have hhigh := le_toNat_of_mem_utf8EncodeChar (Nat.lt_of_not_le hlong) _
        (List.mem_of_getElem? hbyte)
      exact absurd hhigh (by decide)
    rw [String.utf8EncodeChar, if_pos hshort, List.getElem?_singleton] at hbyte
    split at hbyte
    · rename_i hplace
      have hvalue : c.val.toNat % 256 = 10 := congrArg UInt8.toNat (Option.some.inj hbyte)
      rw [Nat.mod_eq_of_lt (by omega)] at hvalue
      exact ⟨Char.ext (UInt32.toNat_inj.mp hvalue), hplace⟩
    · cases hbyte
  · rintro ⟨rfl, rfl⟩
    rfl

/-- A newline byte belongs to the first character, or it comes after all bytes of it. -/
theorem getElem?_utf8Bytes_cons_iff {c : Char} {rest : List Char} {place : Nat} :
    (utf8Bytes (c :: rest))[place]? = some newlineByte ↔
      (c = '\n' ∧ place = 0) ∨
        ∃ later, (utf8Bytes rest)[later]? = some newlineByte ∧ place = c.utf8Size + later := by
  have hsize : (String.utf8EncodeChar c).length = c.utf8Size := String.length_utf8EncodeChar c
  have hbytes : utf8Bytes (c :: rest) = String.utf8EncodeChar c ++ utf8Bytes rest :=
    List.flatMap_cons
  rw [hbytes, ← getElem?_utf8EncodeChar_eq_newline_iff]
  by_cases hfirst : place < c.utf8Size
  · have hnone : ¬ ∃ later, (utf8Bytes rest)[later]? = some newlineByte ∧
        place = c.utf8Size + later := by
      rintro ⟨later, _, rfl⟩
      omega
    rw [List.getElem?_append_left (by omega), or_iff_left hnone]
  · have hnone : (String.utf8EncodeChar c)[place]? = none :=
      List.getElem?_eq_none (by omega)
    rw [List.getElem?_append_right (by omega), hsize, hnone, or_iff_right (by simp)]
    constructor
    · exact fun hlater => ⟨place - c.utf8Size, hlater, by omega⟩
    · rintro ⟨later, hlater, rfl⟩
      rwa [Nat.add_sub_cancel_left]

/-- Lines start right after the newline bytes. -/
theorem mem_lineStartsFrom_iff {start : Nat} (text : List Char) :
    ∀ offset, start ∈ lineStartsFrom offset text ↔
      ∃ place, (utf8Bytes text)[place]? = some newlineByte ∧ start = offset + place + 1 := by
  induction text with
  | nil => simp [lineStartsFrom, utf8Bytes]
  | cons c rest ih =>
      intro offset
      have hfirst : start ∈ lineStartsFrom offset (c :: rest) ↔
          (c = '\n' ∧ start = offset + c.utf8Size) ∨
            start ∈ lineStartsFrom (offset + c.utf8Size) rest := by
        rw [lineStartsFrom]
        by_cases hnewline : c = '\n' <;> simp [hnewline]
      rw [hfirst, ih]
      simp only [getElem?_utf8Bytes_cons_iff]
      constructor
      · rintro (⟨rfl, rfl⟩ | ⟨later, hlater, rfl⟩)
        · exact ⟨0, .inl ⟨rfl, rfl⟩, rfl⟩
        · exact ⟨_, .inr ⟨later, hlater, rfl⟩, by omega⟩
      · rintro ⟨place, ⟨rfl, rfl⟩ | ⟨later, hlater, rfl⟩, rfl⟩
        · exact .inl ⟨rfl, rfl⟩
        · exact .inr ⟨later, hlater, by omega⟩

/-! ## The lines before an offset -/

namespace LineTable

theorem mem_starts_ofText_iff {text : List Char} {start : Nat} :
    start ∈ (ofText text).starts.toList ↔
      start = 0 ∨ ∃ place, (utf8Bytes text)[place]? = some newlineByte ∧ start = place + 1 := by
  have hstarts : (ofText text).starts.toList = 0 :: lineStartsFrom 0 text := rfl
  rw [hstarts, List.mem_cons, mem_lineStartsFrom_iff]
  simp only [Nat.zero_add]

/-- In a sorted table, the lines that have started are those that start up to the
offset. -/
theorem started_eq_filter {table : LineTable}
    (hsorted : table.starts.toList.Pairwise (· < ·)) (offset : Nat) :
    table.started offset = table.starts.toList.filter (· ≤ offset) := by
  rw [started]
  generalize table.starts.toList = starts at hsorted
  induction starts with
  | nil => rfl
  | cons start rest ih =>
      obtain ⟨hfirst, hrest⟩ := List.pairwise_cons.mp hsorted
      by_cases hstarted : start ≤ offset
      · rw [List.takeWhile_cons_of_pos (by simpa using hstarted),
          List.filter_cons_of_pos (by simpa using hstarted), ih hrest]
      · have hlater : ∀ other ∈ rest, ¬ decide (other ≤ offset) = true := by
          intro other hother
          have hlt := hfirst other hother
          simp only [decide_eq_true_eq]
          omega
        rw [List.takeWhile_cons_of_neg (by simpa using hstarted),
          List.filter_cons_of_neg (by simpa using hstarted), List.filter_eq_nil_iff.mpr hlater]

/-- The lines that have started at an offset are the first one and those after the
newline bytes before the offset. -/
theorem started_ofText (text : List Char) (offset : Nat) :
    (ofText text).started offset = 0 :: (newlinesBefore text offset).map (· + 1) := by
  have hsorted := sorted_ofText text
  rw [started_eq_filter hsorted]
  apply List.Pairwise.eq_of_mem_iff (r := (· < ·))
  · exact hsorted.filter _
  · rw [List.pairwise_cons]
    constructor
    · simp
    · rw [List.pairwise_map]
      exact (List.pairwise_lt_range.filter _).imp fun hlt => Nat.succ_lt_succ hlt
  · intro start
    rw [List.mem_filter, mem_starts_ofText_iff, List.mem_cons, List.mem_map]
    simp only [newlinesBefore, List.mem_filter, List.mem_range, decide_eq_true_eq]
    constructor
    · rintro ⟨rfl | ⟨place, hplace, rfl⟩, hle⟩
      · exact .inl rfl
      · exact .inr ⟨place, ⟨hle, hplace⟩, rfl⟩
    · rintro (rfl | ⟨place, ⟨hlt, hplace⟩, rfl⟩)
      · exact ⟨.inl rfl, Nat.zero_le _⟩
      · exact ⟨.inr ⟨place, hplace, rfl⟩, hlt⟩

theorem getLastD_started (text : List Char) (offset : Nat) :
    ((ofText text).started offset).getLastD 0 = lineStart text offset := by
  rw [started_ofText, List.getLastD_cons, List.getLastD_eq_getLast?, List.getLast?_map, lineStart]
  cases (newlinesBefore text offset).getLast? <;> rfl

theorem position_eq (text : List Char) (offset : Nat) :
    (ofText text).position offset =
      (1 + (newlinesBefore text offset).length, 1 + (offset - lineStart text offset)) := by
  rw [position_ofText, getLastD_started, started_ofText, List.length_cons, List.length_map,
    Nat.add_comm 1, Nat.add_comm 1]

/-- The start of a line is not after the offsets on it. -/
theorem lineStart_le (text : List Char) (offset : Nat) : lineStart text offset ≤ offset := by
  rw [lineStart]
  split
  · rename_i newline hlast
    have hmem := List.mem_of_getLast? hlast
    rw [newlinesBefore, List.mem_filter, List.mem_range] at hmem
    exact hmem.1
  · exact Nat.zero_le offset

/-! ## The search for a line -/

/-- The line comes from a search for the offset among the starts of the lines: it is the
start that is hit, or the one before the place at which the offset would be inserted.
That place is never the first one. -/
structure IsFound (table : LineTable) (offset line : Nat) : Prop
    extends table.IsCurrent offset line where
  hit : ∀ place, table.starts[place]? = some offset → line = place
  inserted : offset ∉ table.starts → table.starts.toList.countP (· < offset) = line + 1

section Sorted

variable {table : LineTable} (hsorted : table.starts.toList.Pairwise (· < ·))
include hsorted

theorem getD_lt_getD {first second : Nat} (hlt : first < second)
    (hsize : second < table.starts.size) :
    table.starts.getD first 0 < table.starts.getD second 0 := by
  rw [getD_starts (Nat.lt_trans hlt hsize), getD_starts hsize]
  exact List.pairwise_iff_getElem.mp hsorted first second _ _ hlt

theorem IsCurrent.isFound {offset line : Nat} (hline : table.IsCurrent offset line) :
    table.IsFound offset line where
  toIsCurrent := hline
  hit := by
    intro place hplace
    obtain ⟨hsize, hstart⟩ := Array.getElem?_eq_some_iff.mp hplace
    have hvalue : table.starts.getD place 0 = offset := by
      rw [getD_starts hsize, ← hstart, Array.getElem_toList]
    rcases Nat.lt_trichotomy line place with hbefore | hsame | hafter
    · -- the next line has not started, and the one that is hit does not start before it
      have hnext := hline.next_start (by omega)
      have hle : line + 1 ≤ place := hbefore
      rcases Nat.lt_or_eq_of_le hle with hlater | hnow
      · have hlt := getD_lt_getD hsorted hlater hsize
        omega
      · rw [hnow, hvalue] at hnext
        omega
    · exact hsame
    · have hlt := getD_lt_getD hsorted hafter hline.exists_line
      have hstarted := hline.has_started
      omega
  inserted := by
    intro hmiss
    have hne : ∀ start ∈ table.starts.toList,
        (decide (start < offset) = true ↔ decide (start ≤ offset) = true) := by
      intro start hmem
      have hother : start ≠ offset := by
        rintro rfl
        exact hmiss (Array.mem_toList_iff.mp hmem)
      simp only [decide_eq_true_eq]
      omega
    have hline' : line + 1 ≤ table.starts.toList.length := hline.exists_line
    rw [List.countP_congr hne, List.countP_eq_length_filter, ← started_eq_filter hsorted,
      hline.started_eq hsorted, List.length_take_of_le hline']

end Sorted

/-! ## Later offsets -/

theorem newlinesBefore_prefix (text : List Char) {first second : Nat} (hle : first ≤ second) :
    newlinesBefore text first <+: newlinesBefore text second := by
  apply List.IsPrefix.filter
  rw [List.prefix_iff_eq_take, List.length_range, List.take_range, Nat.min_eq_left hle]

/-- Of two offsets, the later one has the later position: it is on a later line, or in a
later column of the same line. -/
theorem position_strictMono (text : List Char) :
    StrictMono fun offset => toLex ((ofText text).position offset) := by
  intro first second hlt
  have hprefix := newlinesBefore_prefix text (Nat.le_of_lt hlt)
  have hfirst := lineStart_le text first
  simp only [position_eq, Prod.Lex.toLex_lt_toLex]
  rcases Nat.lt_or_eq_of_le hprefix.length_le with hfewer | hequal
  · exact .inl (Nat.add_lt_add_left hfewer 1)
  · have hstart : lineStart text first = lineStart text second := by
      rw [lineStart, hprefix.eq_of_length hequal, lineStart]
    exact .inr ⟨congrArg (1 + ·) hequal, by omega⟩

/-- The position of an offset, also behind the end of the text, counts the newline bytes
before it and the bytes since the last of them.  The line is in the table and has started
at the offset, so that nothing is read or counted below zero; neither number exceeds the
offset by more than one; and positions are in the order of their offsets. -/
theorem position_counts_newlines (text : List Char) :
    (∀ offset,
      (ofText text).position offset =
          (1 + (newlinesBefore text offset).length, 1 + (offset - lineStart text offset)) ∧
        lineStart text offset ≤ offset ∧
        (ofText text).IsFound offset ((ofText text).lineAt offset) ∧
        ((ofText text).position offset).1 ≤ offset + 1 ∧
        ((ofText text).position offset).2 ≤ offset + 1) ∧
      StrictMono (fun offset => toLex ((ofText text).position offset)) ∧
      Function.Injective (ofText text).position := by
  refine ⟨fun offset => ⟨position_eq text offset, lineStart_le text offset,
    (lineAt_isCurrent text offset).isFound (sorted_ofText text), ?_, ?_⟩,
    position_strictMono text, ?_⟩
  · have hfew : (newlinesBefore text offset).length ≤ (List.range offset).length :=
      List.length_filter_le _ _
    rw [List.length_range] at hfew
    rw [position_eq]
    omega
  · rw [position_eq]
    omega
  · exact fun first second hsame => (position_strictMono text).injective (congrArg toLex hsame)

/-- Empty lines count as lines, a character of two bytes takes two columns, and past the
end the last line goes on. -/
example :
    let table := ofText "é;\n\n\nx".toList
    [0, 2, 3, 4, 5, 6, 7, 9].map table.position =
      [(1, 1), (1, 3), (1, 4), (2, 1), (3, 1), (4, 1), (4, 2), (4, 4)] := by
  decide

end LineTable

end DeclCheck
