/-! # Sets of characters as code point ranges

A character property is listed as inclusive code point ranges in ascending order. Membership walks
the list and stops at the first range that begins beyond the character. -/

namespace ComplexReckoner

/-- Inclusive ranges of code points, in ascending order. -/
abbrev CodePointRanges := List (Nat × Nat)

namespace CodePointRanges

/-- Whether a code point lies in one of the ranges. -/
def covers : CodePointRanges → Nat → Bool
  | [], _ => false
  | (first, last) :: later, point =>
      decide (first ≤ point) && (decide (point ≤ last) || covers later point)

/-- Whether every range is non-empty and begins beyond the end of the range before it. -/
def ascending : CodePointRanges → Bool
  | [] => true
  | [(first, last)] => decide (first ≤ last)
  | (first, last) :: (next, bound) :: later =>
      decide (first ≤ last) && decide (last < next) && ascending ((next, bound) :: later)

@[simp] theorem covers_cons (first last point : Nat) (later : CodePointRanges) :
    covers ((first, last) :: later) point =
      (decide (first ≤ point) && (decide (point ≤ last) || covers later point)) := rfl

end CodePointRanges

end ComplexReckoner
