import ComplexReckoner.Text.Basic

/-! # Decimal numbers

A decimal number is a natural number times a power of ten. It is written positionally: all its
digits, a point where one is needed, and never an exponent. -/

namespace ComplexReckoner

/-- The number `coefficient * 10 ^ exponent`. -/
structure Decimal where
  /-- The digits, read as a natural number. -/
  coefficient : Nat
  /-- The power of ten that the last digit counts. -/
  exponent : Int
  deriving DecidableEq, Repr

/-- The digits of a natural number, filled up with zeros on the left to at least `width` digits. -/
def paddedDigits (width n : Nat) : Text :=
  let digits := Nat.toDigits 10 n
  List.replicate (width - digits.length) '0' ++ digits

namespace Decimal

/-- All digits of a decimal number, with a point before those that count less than one. -/
def positional (decimal : Decimal) : Text :=
  match decimal.exponent with
  | .ofNat zeros => Nat.toDigits 10 decimal.coefficient ++ List.replicate zeros '0'
  | .negSucc n =>
      let places := n + 1
      let one := Nat.pow 10 places
      Nat.toDigits 10 (decimal.coefficient / one) ++
        '.' :: paddedDigits places (decimal.coefficient % one)

end Decimal

example : Decimal.positional ⟨15, 3⟩ = "15000".toList := by decide +kernel

example : Decimal.positional ⟨1205, -3⟩ = "1.205".toList := by decide +kernel

example : Decimal.positional ⟨5, -4⟩ = "0.0005".toList := by decide +kernel

end ComplexReckoner
