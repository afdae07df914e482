import ComplexReckoner.Text.Ranges

/-! # Blank characters

The characters that may stand anywhere in an input without changing its meaning: those with the
Unicode property `White_Space`. -/

namespace ComplexReckoner

/-- Code points with the Unicode property `White_Space`. -/
def blankRanges : CodePointRanges :=
  [(0x9, 0xD), (0x20, 0x20), (0x85, 0x85), (0xA0, 0xA0), (0x1680, 0x1680), (0x2000, 0x200A),
  (0x2028, 0x2029), (0x202F, 0x202F), (0x205F, 0x205F), (0x3000, 0x3000)]

/-- Whether a character is blank. -/
def isBlank (c : Char) : Bool := blankRanges.covers c.toNat

example : blankRanges.ascending = true := by decide

end ComplexReckoner
