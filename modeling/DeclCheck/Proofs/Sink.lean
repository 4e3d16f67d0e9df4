import DeclCheck.ReportFile
import DeclCheck.Sink

/-!
# What a failing sink is left with

A report goes into a sink piece by piece, and the sink may run out of room inside any of
them.  How the text is cut into pieces makes no difference: writing them one after the
other is writing their concatenation.  So a sink that fails holds the bytes of the text up
to its room, neither fewer nor any of a later piece, and it is not told to flush.
-/

namespace DeclCheck

/-! ## Bytes -/

theorem textBytes_inj {first second : String} :
    textBytes first = textBytes second ↔ first = second := by
  refine ⟨fun hbytes => ?_, congrArg textBytes⟩
  have hdata : first.toUTF8.data = second.toUTF8.data := Array.toList_inj.mp hbytes
  exact String.toByteArray_inj.mp (ByteArray.ext hdata)

@[simp]
theorem textBytes_append (first second : String) :
    textBytes (first ++ second) = textBytes first ++ textBytes second := by
  rw [textBytes, textBytes, textBytes, ← Array.toList_append, ← ByteArray.data_append]
  rfl

namespace Sink

/-! ## One write -/

/-- The sink after it was given some bytes: it has taken as many as there was room for. -/
def taking (sink : Sink) (bytes : List UInt8) : Sink :=
  { sink with
    room := sink.room - bytes.length
    written := sink.written ++ bytes.take sink.room }

theorem write_of_le {text : String} {sink : Sink}
    (hroom : (textBytes text).length ≤ sink.room) :
    write text sink = .ok () (sink.taking (textBytes text)) :=
  if_pos hroom

theorem write_of_gt {text : String} {sink : Sink}
    (hroom : sink.room < (textBytes text).length) :
    write text sink = .error .full (sink.taking (textBytes text)) :=
  if_neg (Nat.not_le.mpr hroom)

theorem taking_append (sink : Sink) (first second : List UInt8) :
    sink.taking (first ++ second) = (sink.taking first).taking second := by
  simp only [taking, List.length_append, Nat.sub_add_eq, List.take_append, List.append_assoc]

/-- Without room nothing is taken. -/
theorem taking_of_room_eq_zero {sink : Sink} (hroom : sink.room = 0) (bytes : List UInt8) :
    sink.taking bytes = sink := by
  rw [taking, hroom, Nat.zero_sub, List.take_zero, List.append_nil, ← hroom]

/-! ## Writing in pieces -/

/-- Writing two texts is writing the one made of both. -/
theorem write_append (first second : String) :
    write (first ++ second) = (do write first; write second) := by
  funext sink
  change _ = EStateM.bind (write first) (fun _ => write second) sink
  have hlength : (textBytes (first ++ second)).length =
      (textBytes first).length + (textBytes second).length := by
    rw [textBytes_append, List.length_append]
  by_cases hfirst : (textBytes first).length ≤ sink.room
  · simp only [EStateM.bind, write_of_le hfirst]
    have hleft : (sink.taking (textBytes first)).room =
        sink.room - (textBytes first).length := rfl
    by_cases hsecond : (textBytes second).length ≤ (sink.taking (textBytes first)).room
    · rw [write_of_le hsecond, write_of_le (by omega), textBytes_append, taking_append]
    · rw [write_of_gt (Nat.lt_of_not_le hsecond), write_of_gt (by omega), textBytes_append,
        taking_append]
  · -- the first text uses up the room, so that the second changes nothing
    have hnone : (sink.taking (textBytes first)).room = 0 :=
      Nat.sub_eq_zero_of_le (Nat.le_of_not_le hfirst)
    simp only [EStateM.bind, write_of_gt (Nat.lt_of_not_le hfirst)]
    rw [write_of_gt (by omega), textBytes_append, taking_append,
      taking_of_room_eq_zero hnone]

theorem write_empty : write "" = pure () := by
  funext sink
  have hnone : sink.taking [] = sink := by
    rw [taking, List.length_nil, Nat.sub_zero, List.take_nil, List.append_nil]
  exact (write_of_le (Nat.zero_le _)).trans (congrArg (EStateM.Result.ok ()) hnone)

theorem forM_write (pieces : List String) :
    pieces.forM write = write (String.join pieces) := by
  induction pieces with
  | nil => exact write_empty.symm
  | cons piece rest ih =>
      rw [String.join_cons, write_append, ← ih]
      rfl

/-- However a text is cut into pieces, they are written as the whole is. -/
theorem writeAll_eq_join (pieces : List String) :
    writeAll pieces = writeAll [String.join pieces] := by
  rw [writeAll, writeAll, forM_write, forM_write, String.join_cons, String.join_nil,
    String.append_empty]

/-! ## The end of the writing -/

/-- What there is no room for is not flushed. -/
theorem writeAll_of_gt {pieces : List String} {sink : Sink}
    (hroom : sink.room < (textBytes (String.join pieces)).length) :
    writeAll pieces sink = .error .full (sink.taking (textBytes (String.join pieces))) := by
  change EStateM.bind (pieces.forM write) (fun _ => flush) sink = _
  rw [forM_write]
  simp only [EStateM.bind, write_of_gt hroom]

theorem writeAll_of_le {pieces : List String} {sink : Sink}
    (hroom : (textBytes (String.join pieces)).length ≤ sink.room) :
    writeAll pieces sink = flush (sink.taking (textBytes (String.join pieces))) := by
  change EStateM.bind (pieces.forM write) (fun _ => flush) sink = _
  rw [forM_write]
  simp only [EStateM.bind, write_of_le hroom]

/-- The sink that a run leaves behind, whether it succeeds or fails. -/
def leftBy : EStateM.Result SinkError Sink Unit → Sink
  | .ok _ sink => sink
  | .error _ sink => sink

/-- The error that a run ends with, if it does. -/
def failure? : EStateM.Result SinkError Sink Unit → Option SinkError
  | .ok _ _ => none
  | .error error _ => some error

theorem leftBy_flush (sink : Sink) :
    leftBy (flush sink) = { sink with flushes := sink.flushes + 1 } := by
  rw [flush]
  split <;> rfl

theorem failure?_flush (sink : Sink) :
    failure? (flush sink) = if sink.refusesFlush then some .flushRefused else none := by
  rw [flush]
  split <;> rfl

/-- The result of writing some bytes is clean.  The sink holds all of them, or as many as
it has room for.  It has failed to take them exactly if there is no room for all, and then
it was not told to flush; otherwise it was, once, and the answer to that is the result. -/
structure IsCleanPrefix (sink : Sink) (out : List UInt8)
    (result : EStateM.Result SinkError Sink Unit) : Prop where
  written : (leftBy result).written = sink.written ++ out.take (min sink.room out.length)
  full_iff : failure? result = some .full ↔ sink.room < out.length
  flushes : (leftBy result).flushes =
    if sink.room < out.length then sink.flushes else sink.flushes + 1
  flushed : out.length ≤ sink.room →
    failure? result = if sink.refusesFlush then some .flushRefused else none

theorem isCleanPrefix_writeAll (pieces : List String) (sink : Sink) :
    sink.IsCleanPrefix (textBytes (String.join pieces)) (writeAll pieces sink) := by
  by_cases hroom : sink.room < (textBytes (String.join pieces)).length
  · rw [writeAll_of_gt hroom]
    constructor
    case written =>
      rw [Nat.min_eq_left (Nat.le_of_lt hroom)]
      rfl
    case full_iff => exact iff_of_true rfl hroom
    case flushes =>
      rw [if_pos hroom]
      rfl
    case flushed => exact fun hfits => absurd hroom (Nat.not_lt.mpr hfits)
  · have hfits := Nat.le_of_not_lt hroom
    rw [writeAll_of_le hfits]
    constructor
    case written =>
      rw [leftBy_flush, Nat.min_eq_right hfits, List.take_length]
      exact congrArg (sink.written ++ ·) (List.take_of_length_le hfits)
    case full_iff =>
      rw [failure?_flush]
      refine iff_of_false ?_ hroom
      split <;> simp
    case flushes =>
      rw [leftBy_flush, if_neg hroom]
      rfl
    case flushed => exact fun _ => failure?_flush _

end Sink

/-- The text of a listing: each entry without the white space at its end, on a line of its
own, and a line of dashes after it. -/
theorem join_listingLines (entries : List String) :
    String.join (ReportFile.listingLines entries) =
      String.join (entries.map fun entry =>
        String.ofList (Text.trimEnd entry.toList) ++ "\n" ++ "----------------------" ++ "\n") := by
  induction entries with
  | nil => rfl
  | cons entry rest ih =>
      have hlines : ReportFile.listingLines (entry :: rest) =
          (String.ofList (Text.trimEnd entry.toList) ++ "\n") ::
            (ReportFile.separator ++ "\n") :: ReportFile.listingLines rest := rfl
      rw [hlines, String.join_cons, String.join_cons, ih, List.map_cons, String.join_cons]
      simp only [String.append_assoc, ReportFile.separator]

/-- Whatever room a sink has, and however the text of a report on diagnostics or of a
listing is cut into pieces: the sink is left with a clean prefix of the text, and the error
tells whether that is all of it.  A report has a line for each diagnostic; a listing has a
line for each entry, without the white space at its end, and a line of dashes after it. -/
theorem reports_leave_clean_prefix (diagnostics : List Diagnostic) (entries : List String)
    (sink : Sink) :
    let report := String.join (diagnostics.map fun diagnostic => diagnostic.text ++ "\n")
    let listing := String.join (entries.map fun entry =>
      String.ofList (Text.trimEnd entry.toList) ++ "\n" ++ "----------------------" ++ "\n")
    sink.IsCleanPrefix (textBytes report)
        (Sink.writeAll (ReportFile.diagnosticLines diagnostics) sink) ∧
      sink.IsCleanPrefix (textBytes listing)
        (Sink.writeAll (ReportFile.listingLines entries) sink) ∧
      ∀ pieces : List String, Sink.writeAll pieces = Sink.writeAll [String.join pieces] := by
  intro report listing
  refine ⟨Sink.isCleanPrefix_writeAll _ sink, ?_, Sink.writeAll_eq_join⟩
  have hclean := Sink.isCleanPrefix_writeAll (ReportFile.listingLines entries) sink
  rwa [join_listingLines] at hclean

/-- The room ends inside the separator; the sink would have refused to flush as well. -/
example :
    let result := Sink.writeAll (ReportFile.listingLines ["ab "])
      { room := 4, refusesFlush := true }
    (Sink.leftBy result).written = textBytes "ab\n-" ∧ Sink.failure? result = some .full ∧
      (Sink.leftBy result).flushes = 0 := by
  decide +kernel

end DeclCheck
