import ComplexReckoner.Decimal.Basic

/-! # Shortest decimal numbers

The decimal number with the fewest digits that reads back as a given binary64 number, and of those
the nearest.

The reals that round to a binary64 number form an interval around it. On the grid of the multiples
of a power of ten, only the two neighbours of the number have to be tried: if any multiple lies in
the interval, so does one of these two. The coarsest grid with a hit has the fewest digits.

Everything is computed with natural numbers. A `RoundingInterval` counts in units of `2 ^ -1076`, of
which every end of such an interval is a multiple, and the finest grid that is ever needed has 324
decimal places. -/

namespace ComplexReckoner

/-- The reals that round to a number, with the number itself, all counted in one unit. -/
structure RoundingInterval where
  /-- The lower end. -/
  low : Nat
  /-- The number. -/
  centre : Nat
  /-- The upper end. -/
  high : Nat
  /-- Whether the ends belong to the interval. -/
  closed : Bool
  deriving DecidableEq, Repr

namespace RoundingInterval

/-- Whether a point lies in the interval. -/
def contains (interval : RoundingInterval) (point : Nat) : Bool :=
  if interval.closed then interval.low ≤ point && point ≤ interval.high
  else interval.low < point && point < interval.high

/-- The same interval counted in a unit that is smaller by a factor. -/
def scale (interval : RoundingInterval) (factor : Nat) : RoundingInterval :=
  ⟨interval.low * factor, interval.centre * factor, interval.high * factor, interval.closed⟩

/-- The multiplier `k` for which `k * step` lies in the interval and is nearest to its centre. Only
the neighbours of the centre are tried, and of two that are equally near the larger is taken. -/
def nearestMultiple? (interval : RoundingInterval) (step : Nat) : Option Nat :=
  let below := interval.centre / step
  let fitsBelow := interval.contains (below * step)
  let fitsAbove := interval.contains ((below + 1) * step)
  let nearerBelow := 2 * (interval.centre % step) < step
  if fitsBelow && (nearerBelow || !fitsAbove) then some below
  else if fitsAbove then some (below + 1)
  else none

/-- Among the grids of the multiples of `unit * 10 ^ n`, for `n` from `power` downwards, the first
one that has a point in the interval: the multiplier of that point and the exponent `n`. -/
def coarsestMultiple? (interval : RoundingInterval) (unit : Nat) : Nat → Option (Nat × Nat)
  | 0 => (interval.nearestMultiple? unit).map (·, 0)
  | power + 1 =>
      match interval.nearestMultiple? (unit * Nat.pow 10 (power + 1)) with
      | some multiple => some (multiple, power + 1)
      | none => coarsestMultiple? interval unit power

/-- The interval around the positive binary64 number with the given biased exponent and fraction, in
units of `2 ^ -1076`. It reaches half way to the neighbours, which are closer below a power of two,
and it has its ends when the mantissa is even, because a tie is rounded to an even mantissa. -/
def ofBinary64 (biased fraction : Nat) : RoundingInterval :=
  let mantissa := if biased = 0 then fraction else Nat.pow 2 52 + fraction
  let exponent := max biased 1
  let centre := mantissa * Nat.pow 2 (exponent + 1)
  let gapBelow := Nat.pow 2 (if fraction = 0 && 1 < biased then exponent - 1 else exponent)
  ⟨centre - gapBelow, centre, centre + Nat.pow 2 exponent, mantissa % 2 == 0⟩

end RoundingInterval

namespace Decimal

/-- The number of units in one. -/
def unitsPerOne : Nat := Nat.pow 2 1076

/-- The number of decimal places of the finest grid. Every rounding interval is wider than its
steps. -/
def finestPlaces : Nat := 324

/-- The shortest decimal number in an interval, when there are `units` of its units in one, and
among those with at most `places` decimal places. The search starts at the grid whose step has as
many zeros as the upper end has digits before the point. -/
def shortestIn (units places : Nat) (interval : RoundingInterval) : Decimal :=
  let integerDigits := (Nat.toDigits 10 (interval.high / units)).length
  let scaled := interval.scale (Nat.pow 10 places)
  match scaled.coarsestMultiple? units (integerDigits + places) with
  | some (multiple, power) => ⟨multiple, (power : Int) - (places : Int)⟩
  | none => ⟨0, 0⟩ -- the finest grid has a point in every rounding interval

/-- The shortest decimal number that reads back as a finite binary64 number, regardless of the sign
of the number. -/
def shortest (x : Float) : Decimal :=
  let bits := x.toBits.toNat
  let biased := bits / Nat.pow 2 52 % Nat.pow 2 11
  let fraction := bits % Nat.pow 2 52
  if biased = 0 && fraction = 0 then ⟨0, 0⟩
  else shortestIn unitsPerOne finestPlaces (.ofBinary64 biased fraction)

end Decimal

end ComplexReckoner
