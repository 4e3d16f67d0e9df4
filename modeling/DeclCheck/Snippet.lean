import DeclCheck.Diagnostic
import DeclCheck.Text.Lines
import DeclCheck.Text.WhiteSpace
import DeclCheck.Text.Width

/-!
# Diagnostics drawn into the source

A diagnostic with a span is drawn as a snippet of the source: a region on one
line is underlined with carets, a region over several lines is framed on the
left.  A diagnostic without a span is drawn as a note.
-/

namespace DeclCheck

/-- A named source text, divided into lines. -/
structure SourceFile where
  name : String
  table : LineTable
  lines : Array (List Char)

namespace SourceFile

def ofText (name : String) (source : List Char) : SourceFile where
  name := name
  table := LineTable.ofText source
  lines := (Text.splitAtNewlines source).toArray

/-- The characters that are not drawn at the end of a line. -/
def isLineEnding (c : Char) : Bool :=
  c = '\n' || c = '\r' || c = '\x00'

/-- A line without its ending; lines are counted from 0. -/
def lineText (file : SourceFile) (line : Nat) : List Char :=
  Text.dropEnding isLineEnding (file.lines.getD line [])

def lineStart (file : SourceFile) (line : Nat) : Nat :=
  file.table.starts.getD line 0

end SourceFile

namespace Snippet

def blanks (count : Nat) : String :=
  String.ofList (List.replicate count ' ')

def dashes (count : Nat) : String :=
  String.ofList (List.replicate count '─')

/-- A line number, set flush right in the margin. -/
def lineNumber (margin line : Nat) : String :=
  let digits := toString (line + 1)
  blanks (margin - digits.length) ++ digits

/-- The place where a region starts.  The column counts characters. -/
def locus (file : SourceFile) (margin line start : Nat) : String :=
  let before := (Text.cells (file.lines.getD line [])).filter (·.offset < start)
  s!"{blanks margin} ┌─ {file.name}:{line + 1}:{before.length + 1}\n"

/-- Carets under the characters that have a byte from `start` up to, but not
including, `stop`, and blanks before them.  One more column after the line can
be marked. -/
def carets (line : List Char) (start stop : Nat) : String :=
  let past : Text.Cell :=
    { char := ' ', offset := byteLength line, width := 1 }
  String.join <| (Text.cells line ++ [past]).map fun cell =>
    if cell.offset < stop then
      let mark := if start < cell.offset + cell.char.utf8Size then '^' else ' '
      String.ofList (List.replicate cell.width mark)
    else ""

/-- A region on one line. -/
def single (file : SourceFile) (span : Span) (message : String)
    (margin line : Nat) : String :=
  let text := file.lineText line
  let start := span.start - file.lineStart line
  let stop := max (span.stop - file.lineStart line) (start + 1)
  s!"{blanks margin} │\n" ++
    s!"{lineNumber margin line} │ {Text.drawn text}\n" ++
    s!"{blanks margin} │ {carets text start stop} {message}\n"

/-- The lines of a framed region that are drawn, where `none` stands for the lines
left out.  All lines are drawn unless two or more can be left out between the
fourth and the last but one. -/
def framedLines (first last : Nat) : List (Option Nat) :=
  if last ≤ first + 6 then
    (List.range (last - first + 1)).map fun distance => some (first + distance)
  else
    [some first, some (first + 1), some (first + 2), some (first + 3), none,
      some (last - 1), some last]

/-- The first line of a frame.  If only white space stands before the region, the
frame begins beside the line, otherwise it begins under it. -/
def frameTop (file : SourceFile) (span : Span) (margin line : Nat) : String :=
  let text := file.lineText line
  let start := span.start - file.lineStart line
  let number := lineNumber margin line
  let indent := byteLength (text.takeWhile Text.isWhiteSpace)
  if start ≤ indent then s!"{number} │ ╭ {Text.drawn text}\n"
  else
    let reached := (Text.cells text).filter (·.offset ≤ start)
    s!"{number} │   {Text.drawn text}\n" ++
      s!"{blanks margin} │ ╭{dashes (Text.totalWidth reached)}^\n"

/-- A later line of a frame. -/
def frameLine (file : SourceFile) (margin line : Nat) : String :=
  s!"{lineNumber margin line} │ │ {Text.drawn (file.lineText line)}\n"

/-- The end of a frame, under its last line. -/
def frameBottom (file : SourceFile) (span : Span) (message : String)
    (margin line : Nat) : String :=
  let stop := span.stop - file.lineStart line
  let inside := (Text.cells (file.lineText line)).filter (·.offset < stop)
  s!"{blanks margin} │ ╰{dashes (Text.totalWidth inside)}^ {message}\n"

/-- A region over several lines. -/
def framed (file : SourceFile) (span : Span) (message : String)
    (margin first last : Nat) : String :=
  let body := (framedLines first last).map fun
    | some line =>
        if line = first then frameTop file span margin line
        else frameLine file margin line
    | none => s!"{blanks margin} · │\n"
  s!"{blanks margin} │  \n" ++ String.join body ++
    frameBottom file span message margin last

/-- A region of the source with a message.  The margin is as wide as the number of
the region's last line. -/
def region (file : SourceFile) (span : Span) (message : String) : String :=
  let first := file.table.lineAt span.start
  let last := file.table.lineAt span.stop
  let margin := (toString (last + 1)).length
  let start := span.start - file.lineStart first
  locus file margin first start ++
    if first = last then single file span message margin first
    else framed file span message margin first last

/-- A note; its lines after the first are indented. -/
def note (text : String) : String :=
  match Text.linesOf text.toList with
  | [] => ""
  | first :: others =>
      s!" = {String.ofList first}\n" ++
        String.join (others.map fun line => s!"   {String.ofList line}\n")

end Snippet

namespace Stage

/-- The title of the diagnostics of a stage. -/
def title : Stage → String
  | lexical => "Lexer error"
  | syntactic => "Syntax error"
  | semantic => "Semantic error"

end Stage

namespace Diagnostic

/-- A diagnostic drawn into its source, followed by an empty line. -/
def drawn (diagnostic : Diagnostic) (file : SourceFile) : String :=
  let kind := diagnostic.kind
  let body := match diagnostic.span with
    | some span => Snippet.region file span diagnostic.message
    | none => Snippet.note s!"line {diagnostic.line}: {diagnostic.message}"
  s!"error[{kind.shown}]: {kind.stage.title}\n" ++ body ++ "\n"

end Diagnostic

end DeclCheck
