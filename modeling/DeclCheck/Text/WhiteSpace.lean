import DeclCheck.Text.CodePoints
import DeclCheck.Text.Lines

/-!
# White space

The characters with the Unicode property `White_Space`.  The zero width space
and the information separators do not have it.
-/

namespace DeclCheck.Text

/-- The ranges of code points that are white space, in increasing order. -/
def whiteSpaceRanges : List (Nat × Nat) :=
  [(0x09, 0x0D), (0x20, 0x20), (0x85, 0x85), (0xA0, 0xA0), (0x1680, 0x1680),
    (0x2000, 0x200A), (0x2028, 0x2029), (0x202F, 0x202F), (0x205F, 0x205F),
    (0x3000, 0x3000)]

def isWhiteSpace (c : Char) : Bool :=
  inRanges whiteSpaceRanges c

/-- A text without the white space at its end. -/
def trimEnd (text : List Char) : List Char :=
  dropEnding isWhiteSpace text

end DeclCheck.Text
