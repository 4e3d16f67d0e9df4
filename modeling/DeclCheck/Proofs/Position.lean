import DeclCheck.Position

/-!
# Lines and columns

The bisection finds the last line that has started at an offset.  So a position counts
the lines that have started there, and the bytes since the last of them did.  In a text
that goes on after a line break, positions up to the break are those of the first part,
and positions after it are those of the second part, moved down by whole lines.
-/

namespace DeclCheck

theorem byteLength_append (first second : List Char) :
    byteLength (first ++ second) = byteLength first + byteLength second := by
  induction first with
  | nil => rw [List.nil_append, byteLength, Nat.zero_add]
  | cons c rest ih => rw [List.cons_append, byteLength, byteLength, ih, Nat.add_assoc]

/-! ## Starts of lines -/

theorem lineStartsFrom_add (distance : Nat) (text : List Char) :
    ∀ offset, lineStartsFrom (distance + offset) text =
      (lineStartsFrom offset text).map (distance + ·) := by
  induction text with
  | nil => exact fun offset => rfl
  | cons c rest ih =>
      intro offset
      simp only [lineStartsFrom, Nat.add_assoc, ih]
      split <;> rfl

theorem lineStartsFrom_append (first second : List Char) :
    ∀ offset, lineStartsFrom offset (first ++ second) =
      lineStartsFrom offset first ++ lineStartsFrom (offset + byteLength first) second := by
  induction first with
  | nil => exact fun offset => rfl
  | cons c rest ih =>
      intro offset
      simp only [List.cons_append, lineStartsFrom, byteLength, ih, Nat.add_assoc]
      split <;> rfl

theorem length_lineStartsFrom (text : List Char) :
    ∀ offset, (lineStartsFrom offset text).length = text.count '\n' := by
  induction text with
  | nil => exact fun offset => rfl
  | cons c rest ih =>
      intro offset
      by_cases hnewline : c = '\n' <;> simp [lineStartsFrom, hnewline, ih]

/-- Lines start one after the other, and the last one not after the end of the text. -/
theorem lineStartsFrom_bounds (text : List Char) :
    ∀ offset, (lineStartsFrom offset text).Pairwise (· < ·) ∧
      ∀ start ∈ lineStartsFrom offset text,
        offset < start ∧ start ≤ offset + byteLength text := by
  induction text with
  | nil => exact fun offset => ⟨.nil, List.forall_mem_nil _⟩
  | cons c rest ih =>
      intro offset
      obtain ⟨hpairwise, hbounds⟩ := ih (offset + c.utf8Size)
      have hsize := c.utf8Size_pos
      have hlater : ∀ start ∈ lineStartsFrom (offset + c.utf8Size) rest,
          offset < start ∧ start ≤ offset + byteLength (c :: rest) := by
        intro start hmem
        have hstart := hbounds start hmem
        rw [byteLength]
        omega
      rw [lineStartsFrom]
      split
      · refine ⟨List.pairwise_cons.mpr ⟨fun start hmem => (hbounds start hmem).1, hpairwise⟩,
          List.forall_mem_cons.mpr ⟨?_, hlater⟩⟩
        rw [byteLength]
        omega
      · exact ⟨hpairwise, hlater⟩

namespace LineTable

/-- The starts of the lines that have started at the offset. -/
def started (table : LineTable) (offset : Nat) : List Nat :=
  table.starts.toList.takeWhile (· ≤ offset)

/-- The line has started at the offset, and the next one, if there is one, has not. -/
structure IsCurrent (table : LineTable) (offset line : Nat) : Prop where
  exists_line : line < table.starts.size
  has_started : table.starts.getD line 0 ≤ offset
  next_start : line + 1 < table.starts.size → offset < table.starts.getD (line + 1) 0

/-- The bisection keeps a line that has started below one that has not. -/
theorem search_isCurrent (table : LineTable) (offset rounds : Nat) :
    ∀ {low high : Nat}, low < high → high - low ≤ rounds → high ≤ table.starts.size →
      table.starts.getD low 0 ≤ offset →
      (high < table.starts.size → offset < table.starts.getD high 0) →
      table.IsCurrent offset (table.search offset rounds low high) := by
  induction rounds with
  | zero =>
      intro low high hlt hrounds
      omega
  | succ rounds ih =>
      intro low high hlt hrounds hsize hlow hhigh
      rw [search]
      split
      · dsimp only
        split
        · rename_i hmiddle
          exact ih (by omega) (by omega) hsize hmiddle hhigh
        · rename_i hmiddle
          exact ih (by omega) (by omega) (by omega) hlow fun _ => Nat.lt_of_not_le hmiddle
      · have hnext : high = low + 1 := by omega
        exact ⟨by omega, hlow, hnext ▸ hhigh⟩

theorem getD_starts {table : LineTable} {line : Nat} (hline : line < table.starts.toList.length) :
    table.starts.getD line 0 = table.starts.toList[line] := by
  simp [Array.getD, show line < table.starts.size from hline]

/-- The lines that have started are those up to the current one. -/
theorem IsCurrent.started_eq {table : LineTable} {offset line : Nat}
    (hline : table.IsCurrent offset line) (hsorted : table.starts.toList.Pairwise (· < ·)) :
    table.started offset = table.starts.toList.take (line + 1) := by
  have hupTo : ∀ start ∈ table.starts.toList.take (line + 1),
      decide (start ≤ offset) = true := by
    intro start hmem
    obtain ⟨earlier, hearlier, rfl⟩ := List.mem_take_iff_getElem.mp hmem
    have hstarted := hline.has_started
    rw [getD_starts hline.exists_line] at hstarted
    apply decide_eq_true
    rcases Nat.lt_or_eq_of_le (Nat.le_of_lt_succ (Nat.lt_of_lt_of_le hearlier
      (Nat.min_le_left _ _))) with hlt | rfl
    · have hbefore := List.pairwise_iff_getElem.mp hsorted earlier line (by omega)
        hline.exists_line hlt
      omega
    · exact hstarted
  have hfrom : (table.starts.toList.drop (line + 1)).takeWhile (· ≤ offset) = [] := by
    by_cases hnext : line + 1 < table.starts.toList.length
    · have hlater := hline.next_start hnext
      rw [getD_starts hnext] at hlater
      rw [List.drop_eq_getElem_cons hnext, List.takeWhile_cons_of_neg]
      simpa using hlater
    · rw [List.drop_eq_nil_of_le (Nat.le_of_not_lt hnext)]
      rfl
  calc table.started offset
      = (table.starts.toList.take (line + 1) ++
          table.starts.toList.drop (line + 1)).takeWhile (· ≤ offset) := by
        rw [List.take_append_drop, started]
    _ = table.starts.toList.take (line + 1) := by
        rw [List.takeWhile_append_of_pos hupTo, hfrom, List.append_nil]

/-! ## Positions -/

theorem sorted_ofText (text : List Char) : (ofText text).starts.toList.Pairwise (· < ·) := by
  obtain ⟨hpairwise, hbounds⟩ := lineStartsFrom_bounds text 0
  exact List.pairwise_cons.mpr ⟨fun start hmem => (hbounds start hmem).1, hpairwise⟩

theorem lineAt_isCurrent (text : List Char) (offset : Nat) :
    (ofText text).IsCurrent offset ((ofText text).lineAt offset) := by
  have hsize : 0 < (ofText text).starts.size := Nat.succ_pos _
  exact search_isCurrent _ _ _ hsize (Nat.le_refl _) (Nat.le_refl _) (Nat.zero_le _)
    fun hlt => absurd hlt (Nat.lt_irrefl _)

/-- The line is the number of lines that have started, and the column counts from the
start of the last of them. -/
theorem position_ofText (text : List Char) (offset : Nat) :
    (ofText text).position offset =
      (((ofText text).started offset).length,
        offset - ((ofText text).started offset).getLastD 0 + 1) := by
  have hline := lineAt_isCurrent text offset
  have hlt : (ofText text).lineAt offset < (ofText text).starts.toList.length :=
    hline.exists_line
  rw [hline.started_eq (sorted_ofText text), position, List.length_take_of_le hlt,
    List.take_succ_eq_append_getElem hlt, List.getLastD_concat, getD_starts hlt]

/-! ## Two parts of a text -/

section Joined

variable (first second : List Char)

theorem starts_joined :
    (ofText (first ++ '\n' :: second)).starts.toList =
      (ofText first).starts.toList ++
        (ofText second).starts.toList.map (byteLength first + 1 + ·) := by
  have hsize : '\n'.utf8Size = 1 := rfl
  have hsecond : lineStartsFrom (byteLength first) ('\n' :: second) =
      (0 :: lineStartsFrom 0 second).map (byteLength first + 1 + ·) := by
    rw [lineStartsFrom, if_pos rfl, hsize, List.map_cons, ← lineStartsFrom_add]
  simp only [ofText]
  rw [lineStartsFrom_append, Nat.zero_add, hsecond]
  rfl

/-- Up to the line break, positions are those of the first part. -/
theorem position_joined_of_le {offset : Nat} (hle : offset ≤ byteLength first) :
    (ofText (first ++ '\n' :: second)).position offset = (ofText first).position offset := by
  have hlater : ((ofText second).starts.toList.map (byteLength first + 1 + ·)).takeWhile
      (· ≤ offset) = [] := by
    rw [ofText, List.map_cons, List.takeWhile_cons_of_neg]
    simp only [decide_eq_true_eq]
    omega
  have hstarted : (ofText (first ++ '\n' :: second)).started offset =
      (ofText first).started offset := by
    rw [started, starts_joined, List.takeWhile_append, hlater, List.append_nil]
    split
    · rename_i hall
      exact ((List.takeWhile_prefix _).eq_of_length hall).symm
    · rfl
  rw [position_ofText, position_ofText, hstarted]

theorem started_joined_add (offset : Nat) :
    (ofText (first ++ '\n' :: second)).started (byteLength first + 1 + offset) =
      (ofText first).starts.toList ++
        ((ofText second).started offset).map (byteLength first + 1 + ·) := by
  have hfirst : ∀ start ∈ (ofText first).starts.toList,
      decide (start ≤ byteLength first + 1 + offset) = true := by
    have hbounds := (lineStartsFrom_bounds first 0).2
    refine List.forall_mem_cons.mpr ⟨by simp, ?_⟩
    intro start hmem
    have hstart := hbounds start hmem
    apply decide_eq_true
    omega
  have hsecond : (fun start => decide (start ≤ byteLength first + 1 + offset)) ∘
      (byteLength first + 1 + ·) = fun start => decide (start ≤ offset) := by
    funext start
    simp
  rw [started, starts_joined, List.takeWhile_append_of_pos hfirst, List.takeWhile_map, hsecond,
    started]

/-- After the line break, positions are those of the second part, moved down by the
lines of the first part. -/
theorem position_joined_add (offset : Nat) :
    (ofText (first ++ '\n' :: second)).position (byteLength first + 1 + offset) =
      (((ofText second).position offset).1 + (first.count '\n' + 1),
        ((ofText second).position offset).2) := by
  have hlines : (ofText first).starts.toList.length = first.count '\n' + 1 := by
    rw [← length_lineStartsFrom first 0]
    rfl
  have hne : (ofText second).started offset ≠ [] := by
    rw [started, ofText, List.takeWhile_cons_of_pos (by simp)]
    exact List.cons_ne_nil _ _
  have hlast := List.getLast?_eq_some_getLast hne
  simp only [position_ofText, started_joined_add, List.length_append, List.length_map, hlines,
    List.getLastD_eq_getLast?, List.getLast?_append, List.getLast?_map, hlast, Option.map_some,
    Option.some_or, Option.getD_some, Nat.add_sub_add_left, Nat.add_comm (first.count '\n' + 1)]

end Joined

end LineTable

end DeclCheck
