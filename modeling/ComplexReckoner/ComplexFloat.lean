import ComplexReckoner.Decimal.Shortest

/-! # Complex numbers

Complex numbers with binary64 parts. Sums and products are computed part by part in the order that
is written here, so that rounding, infinities, NaN and signed zeros come out the same way every
time.

A number is written as its real part, a sign, its imaginary part and `i`. Each part has the fewest
digits that read back, and is written without an exponent. -/

namespace ComplexReckoner

/-- A complex number. -/
structure ComplexFloat where
  /-- The real part. -/
  re : Float
  /-- The imaginary part. -/
  im : Float

namespace ComplexFloat

instance : Add ComplexFloat := ⟨fun x y => ⟨x.re + y.re, x.im + y.im⟩⟩

instance : Mul ComplexFloat :=
  ⟨fun x y => ⟨x.re * y.re - x.im * y.im, x.re * y.im + x.im * y.re⟩⟩

/-- The real number `x`. -/
def ofReal (x : Float) : ComplexFloat := ⟨x, 0.0⟩

/-- The imaginary number `y i`. -/
def ofImaginary (y : Float) : ComplexFloat := ⟨0.0, y⟩

/-- The factor that a subtraction stands for. -/
def minusOne : ComplexFloat := ofReal (-1.0)

/-- A number that is not negative: its digits, or the name of a value that has none. A zero keeps
its sign. -/
def renderMagnitude (x : Float) : Text :=
  if x.isNaN then "NaN".toList
  else if x.isInf then "inf".toList
  else
    let digits := (Decimal.shortest x).positional
    if x.toBits.toNat < Nat.pow 2 63 then digits else '-' :: digits

/-- Writes a part after the sign that goes before it: `-` before a negative part, and otherwise
`positive`. -/
def renderPart (positive : Text) (x : Float) : Text :=
  if x < 0.0 then '-' :: renderMagnitude (0.0 - x) else positive ++ renderMagnitude x

/-- Writes a complex number. -/
def render (z : ComplexFloat) : Text := renderPart [] z.re ++ renderPart ['+'] z.im ++ ['i']

end ComplexFloat

end ComplexReckoner
