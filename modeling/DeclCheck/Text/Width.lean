import DeclCheck.Text.Visible

/-!
# Display width

How many columns a character takes on a terminal.  A tab reaches to the next
stop, so its width depends on the column it starts at.
-/

namespace DeclCheck.Text

/-- The distance between two tab stops. -/
def tabWidth : Nat := 4

/-- Ranges of code points that are drawn two columns wide: East Asian scripts,
full width forms and pictographs. -/
def wideRanges : List (Nat × Nat) :=
  [(0x1100, 0x115F), (0x231A, 0x231B), (0x2329, 0x232A), (0x23E9, 0x23EC),
    (0x23F0, 0x23F0), (0x23F3, 0x23F3), (0x25FD, 0x25FE), (0x2614, 0x2615),
    (0x2648, 0x2653), (0x267F, 0x267F), (0x2693, 0x2693), (0x26A1, 0x26A1),
    (0x26AA, 0x26AB), (0x26BD, 0x26BE), (0x26C4, 0x26C5), (0x26CE, 0x26CE),
    (0x26D4, 0x26D4), (0x26EA, 0x26EA), (0x26F2, 0x26F3), (0x26F5, 0x26F5),
    (0x26FA, 0x26FA), (0x26FD, 0x26FD), (0x2705, 0x2705), (0x270A, 0x270B),
    (0x2728, 0x2728), (0x274C, 0x274C), (0x274E, 0x274E), (0x2753, 0x2755),
    (0x2757, 0x2757), (0x2795, 0x2797), (0x27B0, 0x27B0), (0x27BF, 0x27BF),
    (0x2B1B, 0x2B1C), (0x2B50, 0x2B50), (0x2B55, 0x2B55), (0x2E80, 0x2E99),
    (0x2E9B, 0x2EF3), (0x2F00, 0x2FD5), (0x2FF0, 0x3029), (0x302E, 0x303E),
    (0x3041, 0x3096), (0x309B, 0x30FF), (0x3105, 0x312F), (0x3131, 0x318E),
    (0x3190, 0x31E3), (0x31EF, 0x321E), (0x3220, 0x3247), (0x3250, 0xA48C),
    (0xA490, 0xA4C6), (0xA960, 0xA97C), (0xAC00, 0xD7A3), (0xF900, 0xFAFF),
    (0xFE10, 0xFE19), (0xFE30, 0xFE52), (0xFE54, 0xFE66), (0xFE68, 0xFE6B),
    (0xFF01, 0xFF60), (0xFFE0, 0xFFE6), (0x16FE0, 0x18CFF), (0x1AFF0, 0x1B2FB),
    (0x1F004, 0x1F004), (0x1F0CF, 0x1F0CF), (0x1F18E, 0x1F18E),
    (0x1F191, 0x1F19A), (0x1F200, 0x1F320), (0x1F32D, 0x1F335),
    (0x1F337, 0x1F37C), (0x1F37E, 0x1F393), (0x1F3A0, 0x1F3CA),
    (0x1F3CF, 0x1F3D3), (0x1F3E0, 0x1F3F0), (0x1F3F4, 0x1F3F4),
    (0x1F3F8, 0x1F43E), (0x1F440, 0x1F440), (0x1F442, 0x1F4FC),
    (0x1F4FF, 0x1F53D), (0x1F54B, 0x1F54E), (0x1F550, 0x1F567),
    (0x1F57A, 0x1F57A), (0x1F595, 0x1F596), (0x1F5A4, 0x1F5A4),
    (0x1F5FB, 0x1F64F), (0x1F680, 0x1F6C5), (0x1F6CC, 0x1F6CC),
    (0x1F6D0, 0x1F6D2), (0x1F6D5, 0x1F6D7), (0x1F6DC, 0x1F6DF),
    (0x1F6EB, 0x1F6EC), (0x1F6F4, 0x1F6FC), (0x1F7E0, 0x1F7EB),
    (0x1F7F0, 0x1F7F0), (0x1F90C, 0x1F93A), (0x1F93C, 0x1F945),
    (0x1F947, 0x1F9FF), (0x1FA70, 0x1FAFF), (0x20000, 0x3FFFD)]

/-- Ranges of code points that are drawn into the place of a neighbour although
they are not combining marks: number and abbreviation marks, the caret over a
syllable, and the vowels and finals of Hangul syllables. -/
def joinedRanges : List (Nat × Nat) :=
  [(0x605, 0x605), (0x70F, 0x70F), (0x890, 0x891), (0x8E2, 0x8E2),
    (0x1160, 0x11FF), (0xA8FA, 0xA8FA), (0xD7B0, 0xD7C6), (0xD7CB, 0xD7FB)]

/-- Whether a character takes no column.  The filler for a leading Hangul
consonant is ignorable, but keeps the place of the consonant. -/
def takesNoColumn (c : Char) : Bool :=
  isControl c || isCombining c || inRanges joinedRanges c ||
    (isIgnorable c && c.toNat != 0x115F)

/-- The width of a character that starts at the given column. -/
def width (column : Nat) (c : Char) : Nat :=
  if c = '\t' then tabWidth - column % tabWidth
  else if takesNoColumn c then 0
  else if inRanges wideRanges c then 2
  else 1

/-- A character of a line with its byte offset in the line and its width. -/
structure Cell where
  char : Char
  offset : Nat
  width : Nat
  deriving DecidableEq, Repr

def cellsFrom (offset column : Nat) : List Char → List Cell
  | [] => []
  | c :: rest =>
      let columns := width column c
      { char := c, offset := offset, width := columns } ::
        cellsFrom (offset + c.utf8Size) (column + columns) rest

/-- The cells of a line. -/
def cells (line : List Char) : List Cell :=
  cellsFrom 0 0 line

/-- The columns that some cells take together. -/
def totalWidth : List Cell → Nat
  | [] => 0
  | cell :: rest => cell.width + totalWidth rest

/-- A line as it is drawn: a tab becomes the blanks up to the next stop. -/
def drawn (line : List Char) : String :=
  String.ofList <| (cells line).flatMap fun cell =>
    if cell.char = '\t' then List.replicate cell.width ' ' else [cell.char]

end DeclCheck.Text
