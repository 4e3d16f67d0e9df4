/-!
# Positions in a source text

Offsets count bytes of the UTF-8 text; lines and columns are 1-based, and a
column counts bytes as well.  A `LineTable` holds the offsets at which lines
start, so that the line of an offset is found by bisection instead of by
walking the text.
-/

namespace DeclCheck

/-- The number of bytes that a run of characters takes in UTF-8. -/
def byteLength : List Char → Nat
  | [] => 0
  | c :: rest => c.utf8Size + byteLength rest

/-- A region of a source text: the bytes from `start` up to, but not
including, `stop`, together with the line and column of `start`. -/
structure Span where
  start : Nat := 0
  stop : Nat := 0
  line : Nat := 0
  column : Nat := 0
  deriving DecidableEq, Inhabited, Repr

namespace Span

/-- An empty span that only says which line it is on. -/
def atLine (line : Nat) : Span :=
  { line := line, column := 1 }

/-- The smallest region that covers both spans.  The line and column are those
of the first span, also when the second one starts earlier. -/
def cover (first second : Span) : Span where
  start := min first.start second.start
  stop := max first.stop second.stop
  line := first.line
  column := first.column

/-- The four numbers with their names, as error texts quote a span. -/
def text (span : Span) : String :=
  s!"Span \x7b start: {span.start}, end: {span.stop}, line: {span.line}, " ++
    s!"column: {span.column} \x7d"

end Span

/-- The offsets right after each newline of a text that itself begins at
`offset`. -/
def lineStartsFrom (offset : Nat) : List Char → List Nat
  | [] => []
  | c :: rest =>
      let next := offset + c.utf8Size
      if c = '\n' then next :: lineStartsFrom next rest
      else lineStartsFrom next rest

/-- The offsets at which the lines of a text start, in increasing order.  The
first line starts at offset 0. -/
structure LineTable where
  starts : Array Nat

namespace LineTable

def ofText (text : List Char) : LineTable where
  starts := (0 :: lineStartsFrom 0 text).toArray

/-- Bisection between two line numbers: the last line from `low` up to, but not
including, `high` that starts at or before `offset`, provided that line `low`
does.  The bound `rounds` is at least the distance of the two lines. -/
def search (table : LineTable) (offset : Nat) : Nat → Nat → Nat → Nat
  | 0, low, _ => low
  | rounds + 1, low, high =>
      if low + 1 < high then
        let middle := (low + high) / 2
        if table.starts.getD middle 0 ≤ offset then
          search table offset rounds middle high
        else search table offset rounds low middle
      else low

/-- The line that holds the byte at `offset`, counted from 0.  Offsets past the
end of the text are on the last line. -/
def lineAt (table : LineTable) (offset : Nat) : Nat :=
  table.search offset table.starts.size 0 table.starts.size

/-- The 1-based line and column of the byte at `offset`. -/
def position (table : LineTable) (offset : Nat) : Nat × Nat :=
  let line := table.lineAt offset
  (line + 1, offset - table.starts.getD line 0 + 1)

/-- The span from `start` to `stop`, with the line and column of `start`. -/
def span (table : LineTable) (start stop : Nat) : Span :=
  let position := table.position start
  { start := start, stop := stop, line := position.1, column := position.2 }

end LineTable

end DeclCheck
