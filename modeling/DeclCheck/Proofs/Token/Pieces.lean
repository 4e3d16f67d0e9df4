import DeclCheck.Proofs.Position
import DeclCheck.Proofs.Token.Lines

/-!
# The pieces of a source text

One step of the scanner cuts a run of characters off the head of a text, and what it
skips is layout.  Step after step the pieces use up the whole text, so each of them has
a region of the source, and the results of reading are the pieces that are not layout
in their regions.
-/

namespace DeclCheck

namespace Lexer

/-! ## One step -/

/-- `IsLayout run rest` says that the run is skipped in front of the rest: blanks as
long as they go on, a comment up to the end of its line, or a comment up to the first
mark that closes it. -/
inductive IsLayout : List Char → List Char → Prop
  | blanks {run rest : List Char} (hne : run ≠ []) (hrun : ∀ c ∈ run, isBlank c = true)
      (hrest : Stops isBlank rest) : IsLayout run rest
  | lineComment {body rest : List Char} (hbody : '\n' ∉ body)
      (hrest : Stops (· ≠ '\n') rest) : IsLayout ('/' :: '/' :: body) rest
  | blockComment {body rest : List Char} (hbody : ¬ ['*', '/'] <:+: body ++ ['*']) :
      IsLayout ('/' :: '*' :: (body ++ ['*', '/'])) rest

theorem IsLayout.ne_nil {run rest : List Char} (hlayout : IsLayout run rest) :
    run ≠ [] := by
  cases hlayout with
  | blanks hne => exact hne
  | _ => exact List.cons_ne_nil _ _

/-- A comment is closed by the first mark that can close it. -/
theorem exists_of_commentLength {text : List Char} :
    ∀ {length : Nat}, commentLength text = some length →
      ∃ body rest, text = body ++ '*' :: '/' :: rest ∧ length = body.length + 2 ∧
        ¬ ['*', '/'] <:+: body ++ ['*'] := by
  induction text with
  | nil =>
      intro length hlength
      cases hlength
  | cons c text ih =>
      intro length hlength
      rw [commentLength] at hlength
      split at hlength
      · rename_i hclose
        obtain ⟨rest, rfl⟩ := List.head?_eq_some_iff.mp hclose.2
        cases hlength
        exact ⟨[], rest, by rw [hclose.1]; rfl, rfl, by decide⟩
      · rename_i hopen
        obtain ⟨inner, hinner, rfl⟩ := Option.map_eq_some_iff.mp hlength
        obtain ⟨body, rest, rfl, rfl, hbody⟩ := ih hinner
        refine ⟨c :: body, rest, rfl, rfl, ?_⟩
        rw [List.cons_append, List.infix_cons_iff, not_or]
        refine ⟨?_, hbody⟩
        -- a mark that starts at `c` would have closed the comment there
        rintro ⟨more, hmore⟩
        rw [List.cons_append, List.cons_append, List.nil_append, List.cons.injEq] at hmore
        apply hopen
        refine ⟨hmore.1.symm, ?_⟩
        cases body with
        | nil => cases hmore.2
        | cons d body =>
            cases hmore.2
            rfl

theorem stops_dropWhile (goesOn : Char → Bool) (text : List Char) :
    Stops goesOn (text.dropWhile goesOn) := by
  intro c hc
  have hhead := List.head?_dropWhile_not goesOn text
  rw [hc] at hhead
  simpa using hhead

/-- What is skipped at the head of a text is layout. -/
theorem isLayout_of_scan {text : List Char} (hne : text ≠ []) {length : Nat}
    (hscan : scan text = (.layout, length)) :
    ∃ run rest, text = run ++ rest ∧ IsLayout run rest ∧ run.length = length := by
  cases found_of_scan hne hscan with
  | @blanks c rest hblank =>
      refine ⟨(c :: rest).takeWhile isBlank, (c :: rest).dropWhile isBlank,
        List.takeWhile_append_dropWhile.symm, .blanks ?_ ?_ (stops_dropWhile _ _), rfl⟩
      · rw [List.takeWhile_cons, if_pos hblank]
        exact List.cons_ne_nil _ _
      · exact List.all_eq_true.mp List.all_takeWhile
  | lineComment body =>
      refine ⟨'/' :: '/' :: body.takeWhile (· ≠ '\n'), body.dropWhile (· ≠ '\n'), ?_,
        .lineComment ?_ (stops_dropWhile _ _), ?_⟩
      · rw [List.cons_append, List.cons_append, List.takeWhile_append_dropWhile]
      · intro hmem
        have hline := List.all_eq_true.mp List.all_takeWhile '\n' hmem
        simp at hline
      · simp
  | blockComment hclosed =>
      obtain ⟨body, rest, rfl, rfl, hbody⟩ := exists_of_commentLength hclosed
      refine ⟨'/' :: '*' :: (body ++ ['*', '/']), rest, by simp, .blockComment hbody, ?_⟩
      simp
  | number hdigit hanswer => cases hanswer
  | quoted hanswer =>
      rw [scanQuoted] at hanswer
      split at hanswer <;> cases hanswer

theorem commentLength_append {body : List Char} (hbody : ¬ ['*', '/'] <:+: body ++ ['*'])
    (rest : List Char) : commentLength (body ++ '*' :: '/' :: rest) = some (body.length + 2) := by
  induction body with
  | nil => rfl
  | cons c body ih =>
      rw [List.cons_append, List.infix_cons_iff, not_or] at hbody
      have hopen : ¬(c = '*' ∧ (body ++ '*' :: '/' :: rest).head? = some '/') := by
        rintro ⟨rfl, hhead⟩
        cases body with
        | nil => cases hhead
        | cons d body =>
            cases hhead
            exact hbody.1 ⟨body ++ ['*'], rfl⟩
      rw [List.cons_append, commentLength, if_neg hopen, ih hbody.2]
      rfl

theorem scan_blank {c : Char} (hblank : isBlank c = true) (rest : List Char) :
    scan (c :: rest) = (.layout, ((c :: rest).takeWhile isBlank).length) := by
  rw [scan, if_pos hblank]

theorem ne_newline_of_mem {body : List Char} (hbody : '\n' ∉ body) :
    ∀ c ∈ '/' :: '/' :: body, decide (c ≠ '\n') = true := by
  intro c hmem
  apply decide_eq_true
  rintro rfl
  simp [hbody] at hmem

theorem scan_lineComment (body : List Char) :
    scan ('/' :: '/' :: body) =
      (.layout, (('/' :: '/' :: body).takeWhile (· ≠ '\n')).length) := by
  simp [scan, isBlank]

theorem scan_blockComment {body : List Char} {length : Nat}
    (hclosed : commentLength body = some length) :
    scan ('/' :: '*' :: body) = (.layout, length + 2) := by
  simp [scan, isBlank, hclosed]

/-- Layout is skipped as a whole. -/
theorem IsLayout.scan_append {run rest : List Char} (hlayout : IsLayout run rest) :
    scan (run ++ rest) = (.layout, run.length) := by
  cases hlayout with
  | blanks hne hrun hrest =>
      obtain ⟨c, run, rfl⟩ := List.exists_cons_of_ne_nil hne
      have htake := takeWhile_append_of_stops hrun hrest
      rw [List.cons_append] at htake ⊢
      rw [scan_blank (hrun c List.mem_cons_self), htake]
  | @lineComment body _ hbody hrest =>
      have htake := takeWhile_append_of_stops (ne_newline_of_mem hbody) hrest
      rw [List.cons_append, List.cons_append] at htake ⊢
      rw [scan_lineComment, htake]
  | @blockComment body _ hbody =>
      simpa using scan_blockComment (commentLength_append hbody rest)

/-- Unreadable text is some of the text. -/
theorem unreadable_length {text : List Char} {length : Nat}
    (hscan : scan text = (.unreadable, length)) : 0 < length ∧ length ≤ text.length := by
  cases found_of_scan (ne_nil_of_scan hscan (by simp)) hscan with
  | openComment hopen => exact ⟨Nat.succ_pos _, Nat.le_refl _⟩
  | number hdigit hanswer => cases hanswer
  | @quoted rest answer hanswer =>
      rw [scanQuoted] at hanswer
      split at hanswer
      · cases hanswer
      · cases hanswer
        obtain ⟨run, more, rfl, _, hlength⟩ := exists_quotedRun rest
        refine ⟨Nat.succ_pos _, ?_⟩
        rw [List.drop_succ_cons, List.drop_zero, ← hlength, List.length_cons,
          List.length_append]
        omega
  | stray => exact ⟨Nat.one_pos, Nat.succ_pos _⟩

/-- A step takes at least one character, and no more than there are. -/
theorem exists_run_of_scan {text : List Char} (hne : text ≠ []) :
    ∃ run rest, text = run ++ rest ∧ run ≠ [] ∧ (scan text).2 = run.length := by
  cases hreading : (scan text).1 with
  | layout =>
      obtain ⟨run, rest, htext, hlayout, hlength⟩ :=
        isLayout_of_scan hne (Prod.ext hreading rfl)
      exact ⟨run, rest, htext, hlayout.ne_nil, hlength.symm⟩
  | token kind =>
      obtain ⟨run, rest, htext, hlexeme, hlength⟩ := cuts_of_scan (Prod.ext hreading rfl)
      exact ⟨run, rest, htext, hlexeme.ne_nil, hlength.symm⟩
  | unreadable =>
      obtain ⟨hpos, hle⟩ := unreadable_length (Prod.ext hreading rfl)
      refine ⟨text.take (scan text).2, text.drop (scan text).2,
        (List.take_append_drop _ _).symm, ?_, (List.length_take_of_le hle).symm⟩
      apply List.ne_nil_of_length_pos
      rwa [List.length_take_of_le hle]

/-! ## Step after step -/

/-- The pieces are cut off the text by one step of the scanner after the other, until
nothing is left. -/
inductive Cut : List Char → List Piece → Prop
  | done : Cut [] []
  | step {reading : Reading} {run rest : List Char} {pieces : List Piece} (hne : run ≠ [])
      (hscan : scan (run ++ rest) = (reading, run.length)) (hrest : Cut rest pieces) :
      Cut (run ++ rest) ({ reading := reading, text := run } :: pieces)

theorem piecesWithin_cut (bound : Nat) :
    ∀ {text : List Char}, text.length ≤ bound → Cut text (piecesWithin bound text) := by
  induction bound with
  | zero =>
      intro text hbound
      rw [List.length_eq_zero_iff.mp (Nat.le_zero.mp hbound)]
      exact .done
  | succ bound ih =>
      intro text hbound
      by_cases hne : text = []
      · rw [hne]
        exact .done
      · obtain ⟨run, rest, rfl, hrun, hlength⟩ := exists_run_of_scan hne
        have hpos := List.length_pos_iff.mpr hrun
        rw [List.length_append] at hbound
        rw [piecesWithin_succ bound hne, hlength, List.take_left, List.drop_left]
        exact .step hrun (Prod.ext rfl hlength) (ih (by omega))

theorem pieces_cut (source : List Char) : Cut source (pieces source) :=
  piecesWithin_cut _ (Nat.le_refl _)

/-- Nothing of the text is lost. -/
theorem Cut.flatMap_text {text : List Char} {cut : List Piece} (hcut : Cut text cut) :
    cut.flatMap Piece.text = text := by
  induction hcut with
  | done => rfl
  | step hne hscan hrest ih => rw [List.flatMap_cons, ih]

/-- There is one way to cut a text into pieces. -/
theorem Cut.eq {text : List Char} {first second : List Piece} (hfirst : Cut text first)
    (hsecond : Cut text second) : first = second := by
  induction hfirst generalizing second with
  | done =>
      generalize htext : ([] : List Char) = text at hsecond
      cases hsecond with
      | done => rfl
      | step hne => exact absurd (List.append_eq_nil_iff.mp htext.symm).1 hne
  | @step reading run rest pieces hne hscan hrest ih =>
      generalize htext : run ++ rest = text at hsecond hscan
      cases hsecond with
      | done => exact absurd (List.append_eq_nil_iff.mp htext).1 hne
      | @step other otherRun otherRest others _ hother hothers =>
          rw [hscan, Prod.mk.injEq] at hother
          obtain ⟨rfl, rfl⟩ := List.append_inj htext hother.2
          rw [hother.1, ih hothers]

/-! ## Regions -/

/-- Pieces that follow one another from the offset on, each with its region. -/
def regions (table : LineTable) : Nat → List Piece → List (Piece × Span)
  | _, [] => []
  | offset, piece :: rest =>
      let stop := offset + byteLength piece.text
      (piece, table.span offset stop) :: regions table stop rest

/-- What a piece in its region is read as.  Layout is read as nothing. -/
def result? : Piece × Span → Option (Except LexError Token)
  | (piece, span) =>
      match piece.reading with
      | .layout => none
      | .token kind => some (.ok { kind := kind, span := span })
      | .unreadable => some (.error { text := String.ofList piece.text, span := span })

/-- The results of reading are the pieces that are not layout. -/
theorem place_eq_filterMap (table : LineTable) (pieces : List Piece) :
    ∀ offset, place table offset pieces =
      (regions table offset pieces).filterMap result? := by
  induction pieces with
  | nil => exact fun offset => rfl
  | cons piece rest ih =>
      intro offset
      rw [place, regions, List.filterMap_cons, result?]
      cases piece.reading with
      | layout => exact ih _
      | token kind => exact congrArg _ (ih _)
      | unreadable => exact congrArg _ (ih _)

/-- `CutAt table source piece span` says that the piece was cut off the source where
the span is. -/
def CutAt (table : LineTable) (source : List Char) (piece : Piece) (span : Span) : Prop :=
  ∃ before after, source = before ++ (piece.text ++ after) ∧
    span = table.span (byteLength before) (byteLength before + byteLength piece.text) ∧
    piece.text ≠ [] ∧ scan (piece.text ++ after) = (piece.reading, piece.text.length)

theorem Cut.cutAt {table : LineTable} {text : List Char} {cut : List Piece}
    (hcut : Cut text cut) :
    ∀ (before : List Char), ∀ region ∈ regions table (byteLength before) cut,
      CutAt table (before ++ text) region.1 region.2 := by
  induction hcut with
  | done => exact fun before => List.forall_mem_nil _
  | @step reading run rest pieces hne hscan hrest ih =>
      intro before
      have hlater := ih (before ++ run)
      rw [byteLength_append, List.append_assoc] at hlater
      exact List.forall_mem_cons.mpr ⟨⟨before, rest, rfl, rfl, hne, hscan⟩, hlater⟩

/-- Regions follow one another. -/
theorem regions_pairwise (table : LineTable) (pieces : List Piece) :
    ∀ offset, (∀ region ∈ regions table offset pieces, offset ≤ region.2.start) ∧
      (regions table offset pieces).Pairwise fun first second =>
        first.2.stop ≤ second.2.start := by
  induction pieces with
  | nil => exact fun offset => ⟨List.forall_mem_nil _, .nil⟩
  | cons piece rest ih =>
      intro offset
      obtain ⟨hlater, hpairwise⟩ := ih (offset + byteLength piece.text)
      constructor
      · refine List.forall_mem_cons.mpr ⟨Nat.le_refl _, ?_⟩
        intro region hmem
        exact Nat.le_trans (Nat.le_add_right _ _) (hlater region hmem)
      · exact List.pairwise_cons.mpr ⟨hlater, hpairwise⟩

/-- Regions leave no gap. -/
theorem exists_region (table : LineTable) (pieces : List Piece) :
    ∀ {offset place : Nat}, offset ≤ place →
      place < offset + byteLength (pieces.flatMap Piece.text) →
      ∃ region ∈ regions table offset pieces,
        region.2.start ≤ place ∧ place < region.2.stop := by
  induction pieces with
  | nil =>
      intro offset place hfrom hto
      rw [List.flatMap_nil, byteLength] at hto
      omega
  | cons piece rest ih =>
      intro offset place hfrom hto
      rw [List.flatMap_cons, byteLength_append, ← Nat.add_assoc] at hto
      by_cases hhere : place < offset + byteLength piece.text
      · exact ⟨_, List.mem_cons_self, hfrom, hhere⟩
      · obtain ⟨region, hmem, hregion⟩ := ih (Nat.le_of_not_lt hhere) hto
        exact ⟨region, List.mem_cons_of_mem _ hmem, hregion⟩

end Lexer

end DeclCheck
