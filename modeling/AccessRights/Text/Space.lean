import AccessRights.Text.CharRange

/-!
# White space

Markup and running text disagree about what is white.  Inside a tag only four
characters are (`isMarkupSpace`); around a date, and between its fields, every
character with the Unicode property `White_Space` is (`isUnicodeSpace`).  The first
set is contained in the second.
-/

namespace AccessRights.Text

/-- Space, tab, carriage return or line feed: the white space of markup. -/
def isMarkupSpace (c : Char) : Bool :=
  c == ' ' || c == '\t' || c == '\r' || c == '\n'

/-- The characters with the property `White_Space`. -/
def whiteSpaceRanges : List CharRange := [
  ⟨0x9, 0xD⟩, ⟨0x20, 0x20⟩, ⟨0x85, 0x85⟩, ⟨0xA0, 0xA0⟩, ⟨0x1680, 0x1680⟩,
  ⟨0x2000, 0x200A⟩, ⟨0x2028, 0x2029⟩, ⟨0x202F, 0x202F⟩, ⟨0x205F, 0x205F⟩,
  ⟨0x3000, 0x3000⟩]

/-- White space in the sense of Unicode. -/
def isUnicodeSpace (c : Char) : Bool :=
  CharRange.holds whiteSpaceRanges c

/-- The text without the white space at its two ends. -/
def trim (cs : List Char) : List Char :=
  ((cs.dropWhile isUnicodeSpace).reverse.dropWhile isUnicodeSpace).reverse

end AccessRights.Text
