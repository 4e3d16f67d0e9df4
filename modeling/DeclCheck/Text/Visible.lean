import DeclCheck.Text.Combining
import DeclCheck.Text.Unassigned
import DeclCheck.Text.WhiteSpace

/-!
# Visible characters

A character is visible if a reader can tell it from the signs around it: it is
assigned, has a shape, and stands on its own.
-/

namespace DeclCheck.Text

/-- The control characters. -/
def controlRanges : List (Nat × Nat) :=
  [(0x0, 0x1F), (0x7F, 0x9F)]

/-- The format characters, which direct how the text around them is laid out. -/
def formatRanges : List (Nat × Nat) :=
  [(0xAD, 0xAD), (0x600, 0x605), (0x61C, 0x61C), (0x6DD, 0x6DD), (0x70F, 0x70F),
    (0x890, 0x891), (0x8E2, 0x8E2), (0x180E, 0x180E), (0x200B, 0x200F),
    (0x202A, 0x202E), (0x2060, 0x2064), (0x2066, 0x206F), (0xFEFF, 0xFEFF),
    (0xFFF9, 0xFFFB), (0x110BD, 0x110BD), (0x110CD, 0x110CD),
    (0x13430, 0x1343F), (0x1BCA0, 0x1BCA3), (0x1D173, 0x1D17A),
    (0xE0001, 0xE0001), (0xE0020, 0xE007F)]

/-- The code points that show nothing where they are not supported, as of the
Unicode property `Default_Ignorable_Code_Point`: fillers, variation selectors,
most format characters, and code points kept for more of these. -/
def ignorableRanges : List (Nat × Nat) :=
  [(0xAD, 0xAD), (0x34F, 0x34F), (0x61C, 0x61C), (0x115F, 0x1160),
    (0x17B4, 0x17B5), (0x180B, 0x180F), (0x200B, 0x200F), (0x202A, 0x202E),
    (0x2060, 0x206F), (0x3164, 0x3164), (0xFE00, 0xFE0F), (0xFEFF, 0xFEFF),
    (0xFFA0, 0xFFA0), (0xFFF0, 0xFFF8), (0x1BCA0, 0x1BCA3), (0x1D173, 0x1D17A),
    (0xE0000, 0xE0FFF)]

/-- The code points for private use. -/
def privateRanges : List (Nat × Nat) :=
  [(0xE000, 0xF8FF), (0xF0000, 0xFFFFD), (0x100000, 0x10FFFD)]

def isControl (c : Char) : Bool :=
  inRanges controlRanges c

def isFormat (c : Char) : Bool :=
  inRanges formatRanges c

def isIgnorable (c : Char) : Bool :=
  inRanges ignorableRanges c

def isPrivate (c : Char) : Bool :=
  inRanges privateRanges c

/-- Whether a character can be seen for what it is.  Of the white space only the
space itself counts. -/
def isVisible (c : Char) : Bool :=
  c == ' ' ||
    !(isControl c || isWhiteSpace c || isFormat c || isIgnorable c ||
      isPrivate c || isCombining c || isUnassigned c)

end DeclCheck.Text
