import ComplexReckoner.Fault

/-! # Numerals

A numeral is made of decimal digits, at least one, and at most one point, which may stand anywhere.
It is read as the nearest binary64 number. -/

namespace ComplexReckoner

namespace Numeral

/-- The natural number that digits denote. -/
def digitsValue (digits : Text) : Nat :=
  digits.foldl (fun value digit => 10 * value + (digit.toNat - '0'.toNat)) 0

/-- The digits before and after the point; without a point there are none after it. -/
def parts (text : Text) : Text × Text := (Text.cut? '.' text).getD (text, [])

/-- Reads a numeral, or tells what is wrong with it. -/
def read (text : Text) : Except LiteralFlaw Float :=
  if 1 < text.count '.' then .error .repeatedPoint
  else
    let (whole, fraction) := parts text
    let digits := whole ++ fraction
    if digits.isEmpty || !digits.all Char.isDigit then .error .notANumber
    else .ok (Float.ofScientific (digitsValue digits) true fraction.length)

end Numeral

end ComplexReckoner
