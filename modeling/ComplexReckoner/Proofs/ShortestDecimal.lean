import Mathlib.Algebra.Order.Field.Rat
import Mathlib.Data.Nat.Digits.Defs
import Mathlib.Tactic.NormNum
import Mathlib.Tactic.Positivity
import Mathlib.Tactic.Ring
import ComplexReckoner.Decimal.Shortest

/-! # Shortest decimal numbers are the shortest

The decimal number that is written for a binary64 number lies in the rounding interval of that
number, no decimal number with fewer places does, and none in it with the same places is nearer
(`Decimal.shortest_spec`).

* On one grid, the neighbours of the centre are all that has to be tried
  (`RoundingInterval.Proper.contains_neighbour`).
* The search goes from coarse grids to fine ones and stops at the first that has a point in the
  interval (`RoundingInterval.coarsestMultiple?_eq_some`).
* It always stops, because a step of the finest grid fits above the centre
  (`RoundingInterval.Proper.nearestMultiple?_ne_none`); and it misses nothing, because the steps of
  the grids before its start lead beyond the interval (`Decimal.high_lt_step`). -/

namespace ComplexReckoner

namespace RoundingInterval

variable {interval : RoundingInterval} {step : Nat}

/-! ## Points of a grid -/

/-- The distance that the points of an interval keep from its ends. -/
def margin (interval : RoundingInterval) : Nat := if interval.closed then 0 else 1

/-- A point lies in the interval when it keeps the distance from both ends. -/
theorem contains_iff (point : Nat) :
    interval.contains point = true ↔
      interval.low + interval.margin ≤ point ∧ point + interval.margin ≤ interval.high := by
  unfold contains margin
  split <;> simp only [Bool.and_eq_true, decide_eq_true_eq] <;> omega

/-- The distance is less than two. -/
theorem margin_le_one (interval : RoundingInterval) : interval.margin ≤ 1 := by
  unfold margin
  split <;> omega

/-- The ends of an interval lie around its centre, and above zero. -/
structure Proper (interval : RoundingInterval) : Prop where
  /-- The lower end is above zero. -/
  pos : 0 < interval.low
  /-- The lower end is below the centre. -/
  low_lt : interval.low < interval.centre
  /-- The upper end is above the centre. -/
  lt_high : interval.centre < interval.high

/-- What lies between a point of the interval and the centre belongs to the interval. -/
theorem Proper.contains_between (proper : interval.Proper) {point other : Nat}
    (inside : interval.contains point = true)
    (between : point ≤ other ∧ other ≤ interval.centre ∨ interval.centre ≤ other ∧ other ≤ point) :
    interval.contains other = true := by
  obtain ⟨-, lowLt, ltHigh⟩ := proper
  have margin := interval.margin_le_one
  rw [contains_iff] at inside ⊢
  omega

/-- What is found on a grid: the neighbour below the centre, unless the one above lies in the
interval and is at least as near; or else the neighbour above. -/
theorem nearestMultiple?_cases (interval : RoundingInterval) (step : Nat) :
    let below := interval.centre / step
    let inside := fun multiple : Nat => interval.contains (multiple * step) = true
    let nearer := 2 * (interval.centre % step) < step
    interval.nearestMultiple? step = some below ∧ inside below ∧ (nearer ∨ ¬ inside (below + 1)) ∨
    interval.nearestMultiple? step = some (below + 1) ∧ inside (below + 1) ∧
      (¬ nearer ∨ ¬ inside below) ∨
    interval.nearestMultiple? step = none ∧ ¬ inside below ∧ ¬ inside (below + 1) := by
  intro below inside nearer
  simp only [nearestMultiple?, Bool.and_eq_true, Bool.or_eq_true, decide_eq_true_eq,
    Bool.not_eq_true', ← Bool.not_eq_true]
  split
  · next fits => exact .inl ⟨rfl, fits⟩
  · next misses =>
    split
    · next fits => exact .inr (.inl ⟨rfl, fits, by tauto⟩)
    · next beyond => exact .inr (.inr ⟨rfl, fun fits => misses ⟨fits, .inr beyond⟩, beyond⟩)

/-- If a multiple of the step lies in the interval, so does a neighbour of the centre. -/
theorem Proper.contains_neighbour (proper : interval.Proper) (positive : 0 < step) {multiple : Nat}
    (inside : interval.contains (multiple * step) = true) :
    let below := interval.centre / step
    multiple ≤ below ∧ interval.contains (below * step) = true ∨
      below + 1 ≤ multiple ∧ interval.contains ((below + 1) * step) = true := by
  intro below
  have floor : below * step ≤ interval.centre := Nat.div_mul_le_self _ _
  have ceiling : interval.centre ≤ (below + 1) * step :=
    (Nat.lt_mul_of_div_lt (Nat.lt_succ_self _) positive).le
  rcases Nat.lt_or_ge below multiple with above | under
  · have beyond := Nat.mul_le_mul_right step above
    exact .inr ⟨above, proper.contains_between inside (.inr ⟨ceiling, beyond⟩)⟩
  · have short := Nat.mul_le_mul_right step under
    exact .inl ⟨under, proper.contains_between inside (.inl ⟨short, floor⟩)⟩

/-- Nothing is found only where no multiple of the step lies in the interval. -/
theorem Proper.not_contains_of_none (proper : interval.Proper) (positive : 0 < step)
    (nothing : interval.nearestMultiple? step = none) (multiple : Nat) :
    ¬ interval.contains (multiple * step) = true := by
  intro inside
  have neighbour := proper.contains_neighbour positive inside
  rcases interval.nearestMultiple?_cases step with
    ⟨found, -⟩ | ⟨found, -⟩ | ⟨-, missBelow, missAbove⟩
  · cases nothing.symm.trans found
  · cases nothing.symm.trans found
  · exact neighbour.elim (fun below => missBelow below.2) (fun above => missAbove above.2)

/-- What is found lies in the interval, and no other multiple in it is nearer to the centre. -/
theorem Proper.nearest_of_nearestMultiple? (proper : interval.Proper) (positive : 0 < step)
    {nearest : Nat} (found : interval.nearestMultiple? step = some nearest) :
    interval.contains (nearest * step) = true ∧
      ∀ multiple : Nat, interval.contains (multiple * step) = true →
        |((nearest * step : Nat) : Int) - interval.centre| ≤
          |((multiple * step : Nat) : Int) - interval.centre| := by
  have whole := Nat.div_add_mod' interval.centre step
  have short := Nat.mod_lt interval.centre positive
  have next := Nat.add_one_mul (interval.centre / step) step
  rcases interval.nearestMultiple?_cases step with
    ⟨same, inside, choice⟩ | ⟨same, inside, choice⟩ | ⟨same, -⟩
  · cases found.symm.trans same
    refine ⟨inside, fun multiple fits => ?_⟩
    rw [abs_eq_max_neg, abs_eq_max_neg]
    rcases proper.contains_neighbour positive fits with ⟨under, -⟩ | ⟨above, fitsAbove⟩
    · have farther := Nat.mul_le_mul_right step under
      omega
    · have nearer := choice.resolve_right (not_not_intro fitsAbove)
      have farther := Nat.mul_le_mul_right step above
      omega
  · cases found.symm.trans same
    refine ⟨inside, fun multiple fits => ?_⟩
    rw [abs_eq_max_neg, abs_eq_max_neg]
    rcases proper.contains_neighbour positive fits with ⟨under, fitsBelow⟩ | ⟨above, -⟩
    · have notNearer := choice.resolve_right (not_not_intro fitsBelow)
      have farther := Nat.mul_le_mul_right step under
      omega
    · have farther := Nat.mul_le_mul_right step above
      omega
  · cases found.symm.trans same

/-! ## From coarse grids to fine ones -/

/-- If the finest grid has a point in the interval, the search stops at one, and no grid that it has
tried before has any. -/
theorem coarsestMultiple?_eq_some {unit : Nat} (finest : interval.nearestMultiple? unit ≠ none)
    (power : Nat) :
    ∃ multiple n, interval.coarsestMultiple? unit power = some (multiple, n) ∧
      interval.nearestMultiple? (unit * 10 ^ n) = some multiple ∧
      ∀ other, n < other → other ≤ power →
        interval.nearestMultiple? (unit * 10 ^ other) = none := by
  induction power with
  | zero =>
    obtain ⟨multiple, found⟩ := Option.ne_none_iff_exists'.1 finest
    refine ⟨multiple, 0, by rw [coarsestMultiple?, found, Option.map_some], ?_, by omega⟩
    rwa [pow_zero, mul_one]
  | succ power ih =>
    rw [coarsestMultiple?, Nat.pow_eq]
    cases found : interval.nearestMultiple? (unit * 10 ^ (power + 1)) with
    | some multiple => exact ⟨multiple, power + 1, rfl, found, by omega⟩
    | none =>
      obtain ⟨multiple, n, search, here, before⟩ := ih
      refine ⟨multiple, n, search, here, fun other later within => ?_⟩
      rcases Nat.lt_or_ge power other with last | earlier
      · rwa [show other = power + 1 by omega]
      · exact before other later earlier

/-- A grid whose step is longer than the upper end has no point in the interval. -/
theorem Proper.not_contains_of_high_lt (proper : interval.Proper) (long : interval.high < step)
    (multiple : Nat) : ¬ interval.contains (multiple * step) = true := by
  rw [contains_iff]
  rintro ⟨above, below⟩
  have positive := proper.pos
  cases multiple with
  | zero => omega
  | succ multiple =>
    have once : step ≤ (multiple + 1) * step := Nat.le_mul_of_pos_left step (by omega)
    omega

/-- A grid has a point in the interval when its step fits between the centre and the upper end. -/
theorem Proper.nearestMultiple?_ne_none (proper : interval.Proper) (positive : 0 < step)
    (fits : interval.centre + step < interval.high) : interval.nearestMultiple? step ≠ none := by
  intro nothing
  refine proper.not_contains_of_none positive nothing (interval.centre / step + 1) ?_
  have floor : interval.centre / step * step ≤ interval.centre := Nat.div_mul_le_self _ _
  have ceiling : interval.centre < (interval.centre / step + 1) * step :=
    Nat.lt_mul_of_div_lt (Nat.lt_succ_self _) positive
  have next := Nat.add_one_mul (interval.centre / step) step
  have margin := interval.margin_le_one
  have low := proper.low_lt
  rw [contains_iff]
  omega

/-! ## Intervals of binary64 numbers -/

/-- A finer unit keeps an interval proper. -/
theorem Proper.scale (proper : interval.Proper) {factor : Nat} (positive : 0 < factor) :
    (interval.scale factor).Proper where
  pos := Nat.mul_pos proper.pos positive
  low_lt := Nat.mul_lt_mul_of_pos_right proper.low_lt positive
  lt_high := Nat.mul_lt_mul_of_pos_right proper.lt_high positive

variable {biased fraction : Nat}

/-- The interval of a binary64 number other than zero is proper. -/
theorem proper_ofBinary64 (nonzero : biased ≠ 0 ∨ fraction ≠ 0) :
    (ofBinary64 biased fraction).Proper := by
  let mantissa := if biased = 0 then fraction else 2 ^ 52 + fraction
  let exponent := max biased 1
  let lower := if fraction = 0 && 1 < biased then exponent - 1 else exponent
  have positive : 1 ≤ mantissa := by
    simp only [mantissa]
    split <;> omega
  have smaller : 2 ^ lower ≤ 2 ^ exponent := by
    refine Nat.pow_le_pow_right (by omega) ?_
    simp only [lower]
    split <;> omega
  have larger : 2 ^ exponent < mantissa * 2 ^ (exponent + 1) :=
    calc 2 ^ exponent < 2 ^ (exponent + 1) := Nat.pow_lt_pow_right (by omega) (by omega)
      _ ≤ mantissa * 2 ^ (exponent + 1) := Nat.le_mul_of_pos_left _ positive
  constructor
  · exact Nat.sub_pos_of_lt (lt_of_le_of_lt smaller larger)
  · exact Nat.sub_lt (lt_of_le_of_lt (Nat.zero_le _) larger) (Nat.two_pow_pos lower)
  · exact Nat.lt_add_of_pos_right (Nat.two_pow_pos exponent)

/-- The interval of a binary64 number reaches two units beyond it. -/
theorem centre_add_two_le_high (biased fraction : Nat) :
    (ofBinary64 biased fraction).centre + 2 ≤ (ofBinary64 biased fraction).high := by
  have exponent : 2 ^ 1 ≤ 2 ^ max biased 1 := Nat.pow_le_pow_right (by omega) (by omega)
  exact Nat.add_le_add_left exponent _

/-- The number at the centre of an interval, when there are `units` of its units in one. -/
def value (interval : RoundingInterval) (units : Nat) : ℚ := interval.centre / units

/-- Whether a number lies in an interval, when there are `units` of its units in one. -/
def Holds (interval : RoundingInterval) (units : Nat) (value : ℚ) : Prop :=
  if interval.closed then interval.low ≤ value * units ∧ value * units ≤ interval.high
  else interval.low < value * units ∧ value * units < interval.high

/-- A number lies in the interval when it does after a change to a finer unit. -/
theorem contains_scale_iff {units factor point : Nat} (positive : 0 < factor) {value : ℚ}
    (same : value * units * factor = point) :
    (interval.scale factor).contains point = true ↔ interval.Holds units value := by
  have finer : (0 : ℚ) < factor := by exact_mod_cast positive
  have above : ∀ bound : Nat, bound * factor ≤ point ↔ (bound : ℚ) ≤ value * units := by
    intro bound
    rw [← mul_le_mul_iff_of_pos_right finer, same]
    exact_mod_cast Iff.rfl
  have below : ∀ bound : Nat, point ≤ bound * factor ↔ value * units ≤ (bound : ℚ) := by
    intro bound
    rw [← mul_le_mul_iff_of_pos_right finer, same]
    exact_mod_cast Iff.rfl
  unfold contains Holds scale
  dsimp only
  split
  · rw [Bool.and_eq_true, decide_eq_true_eq, decide_eq_true_eq, above, below]
  · rw [Bool.and_eq_true, decide_eq_true_eq, decide_eq_true_eq, ← not_le, ← not_le, above, below,
      not_le, not_le]

end RoundingInterval

namespace Decimal

/-! ## The shortest decimal number -/

/-- The number that a decimal number stands for. -/
def value (decimal : Decimal) : ℚ := decimal.coefficient * (10 : ℚ) ^ decimal.exponent

variable {units places : Nat} {interval : RoundingInterval}

/-- A decimal number with at most so many places, counted in the unit of the finest grid. -/
theorem value_mul_units (coefficient power : Nat) :
    value ⟨coefficient, power - places⟩ * units * (10 ^ places : Nat) =
      (coefficient * (units * 10 ^ power) : Nat) := by
  have shift : (10 : ℚ) ^ ((power : Int) - places) * 10 ^ places = 10 ^ power := by
    rw [zpow_sub₀ (by norm_num), zpow_natCast, zpow_natCast, div_mul_cancel₀ _ (by positivity)]
  push_cast
  rw [value, ← shift]
  ring

/-- A decimal number lies in an interval when its point on the finest grid does. -/
theorem contains_iff_holds (coefficient power : Nat) :
    (interval.scale (10 ^ places)).contains (coefficient * (units * 10 ^ power)) = true ↔
      interval.Holds units (value ⟨coefficient, power - places⟩) :=
  RoundingInterval.contains_scale_iff (Nat.pow_pos (by omega)) (value_mul_units coefficient power)

/-- The distance of a decimal number from the centre of an interval, counted in the unit of the
finest grid. -/
theorem abs_sub_value_mul (positive : 0 < units) (coefficient power : Nat) :
    |value ⟨coefficient, power - places⟩ - interval.value units| * (units * (10 ^ places : Nat)) =
      (|((coefficient * (units * 10 ^ power) : Nat) : Int) -
        (interval.scale (10 ^ places)).centre| : Int) := by
  have finer : (0 : ℚ) < units * (10 ^ places : Nat) := by
    exact_mod_cast Nat.mul_pos positive (Nat.pow_pos (by omega))
  have nonzero : (units : ℚ) ≠ 0 := by exact_mod_cast positive.ne'
  have centre : interval.value units * units = interval.centre := div_mul_cancel₀ _ nonzero
  calc |value ⟨coefficient, power - places⟩ - interval.value units| * (units * (10 ^ places : Nat))
      = |(value ⟨coefficient, power - places⟩ - interval.value units) *
          (units * (10 ^ places : Nat))| := by rw [abs_mul, abs_of_pos finer]
    _ = |value ⟨coefficient, power - places⟩ * units * (10 ^ places : Nat) -
          interval.value units * units * (10 ^ places : Nat)| := by
        rw [sub_mul, mul_assoc, mul_assoc]
    _ = _ := by
        rw [value_mul_units, centre, RoundingInterval.scale]
        push_cast
        rfl

/-- The upper end of an interval is below the steps of the grids before the search. -/
theorem high_lt_step (positive : 0 < units) {power : Nat}
    (before : (Nat.toDigits 10 (interval.high / units)).length + places < power) :
    (interval.scale (10 ^ places)).high < units * 10 ^ power := by
  generalize counted : (Nat.toDigits 10 (interval.high / units)).length = digits at before
  have small : interval.high / units < 10 ^ digits := by
    rw [← counted]
    exact (Nat.length_toDigits_le_iff (by omega) Nat.length_toDigits_pos).1 le_rfl
  calc interval.high * 10 ^ places
      < 10 ^ digits * units * 10 ^ places :=
        Nat.mul_lt_mul_of_pos_right (Nat.lt_mul_of_div_lt small positive) (Nat.pow_pos (by omega))
    _ = units * 10 ^ (digits + places) := by
        rw [pow_add]
        ring
    _ ≤ units * 10 ^ power := Nat.mul_le_mul_left _ (Nat.pow_le_pow_right (by omega) before.le)

/-- The search ends at a point of a grid, and no coarser grid has a point in the interval. -/
theorem exists_shortestIn_eq (proper : interval.Proper) (positive : 0 < units)
    (fine : units < 2 * 10 ^ places) (wide : interval.centre + 2 ≤ interval.high) :
    let scaled := interval.scale (10 ^ places)
    ∃ multiple power : Nat, shortestIn units places interval = ⟨multiple, power - places⟩ ∧
      scaled.nearestMultiple? (units * 10 ^ power) = some multiple ∧
      ∀ other, power < other → ∀ coefficient,
        ¬ scaled.contains (coefficient * (units * 10 ^ other)) = true := by
  intro scaled
  have properScaled : scaled.Proper := proper.scale (Nat.pow_pos (by omega))
  have finest : scaled.nearestMultiple? units ≠ none := by
    refine properScaled.nearestMultiple?_ne_none positive ?_
    calc interval.centre * 10 ^ places + units
        < interval.centre * 10 ^ places + 2 * 10 ^ places := Nat.add_lt_add_left fine _
      _ = (interval.centre + 2) * 10 ^ places := (Nat.add_mul _ _ _).symm
      _ ≤ interval.high * 10 ^ places := Nat.mul_le_mul_right _ wide
  obtain ⟨multiple, power, search, found, before⟩ :=
    RoundingInterval.coarsestMultiple?_eq_some finest
      ((Nat.toDigits 10 (interval.high / units)).length + places)
  refine ⟨multiple, power, ?_, found, fun other coarser coefficient => ?_⟩
  · simp only [shortestIn, Nat.pow_eq]
    rw [search]
  · rcases Nat.lt_or_ge ((Nat.toDigits 10 (interval.high / units)).length + places) other with
      early | tried
    · exact properScaled.not_contains_of_high_lt (high_lt_step positive early) coefficient
    · have step : 0 < units * 10 ^ other := Nat.mul_pos positive (Nat.pow_pos (by omega))
      exact properScaled.not_contains_of_none step (before other coarser tried) coefficient

/-- The shortest decimal number in an interval lies in it, no decimal number with fewer places does,
and none in it with the same places is nearer to the centre. -/
theorem shortestIn_spec (proper : interval.Proper) (positive : 0 < units)
    (fine : units < 2 * 10 ^ places) (wide : interval.centre + 2 ≤ interval.high) :
    let found := shortestIn units places interval
    interval.Holds units found.value ∧
    (∀ other : Decimal, found.exponent < other.exponent → ¬ interval.Holds units other.value) ∧
    ∀ other : Decimal, other.exponent = found.exponent → interval.Holds units other.value →
      |found.value - interval.value units| ≤ |other.value - interval.value units| := by
  obtain ⟨multiple, power, same, nearest, coarser⟩ :=
    exists_shortestIn_eq proper positive fine wide
  have properScaled := proper.scale (Nat.pow_pos (by omega) : 0 < 10 ^ places)
  have step : 0 < units * 10 ^ power := Nat.mul_pos positive (Nat.pow_pos (by omega))
  obtain ⟨inside, nearer⟩ := properScaled.nearest_of_nearestMultiple? step nearest
  rw [same]
  refine ⟨(contains_iff_holds _ _).1 inside, ?_, ?_⟩
  · rintro ⟨coefficient, exponent⟩ less holds
    dsimp only at less
    obtain ⟨other, rfl⟩ : ∃ other : Nat, exponent = other - places :=
      ⟨(exponent + places).toNat, by omega⟩
    exact coarser other (by omega) coefficient ((contains_iff_holds _ _).2 holds)
  · rintro ⟨coefficient, exponent⟩ rfl holds
    have finer : (0 : ℚ) < units * (10 ^ places : Nat) := by
      exact_mod_cast Nat.mul_pos positive (Nat.pow_pos (by omega))
    rw [← mul_le_mul_iff_of_pos_right finer, abs_sub_value_mul positive, abs_sub_value_mul positive]
    exact_mod_cast nearer coefficient ((contains_iff_holds _ _).2 holds)

/-- The decimal number that is found for a binary64 number other than zero lies in its rounding
interval, no decimal number with fewer places does, and none in it with the same places is nearer to
the number. -/
theorem shortest_spec (x : Float) :
    let biased := x.toBits.toNat / 2 ^ 52 % 2 ^ 11
    let fraction := x.toBits.toNat % 2 ^ 52
    let interval := RoundingInterval.ofBinary64 biased fraction
    let found := shortest x
    biased ≠ 0 ∨ fraction ≠ 0 →
      interval.Holds unitsPerOne found.value ∧
      (∀ other : Decimal, found.exponent < other.exponent →
        ¬ interval.Holds unitsPerOne other.value) ∧
      ∀ other : Decimal, other.exponent = found.exponent →
        interval.Holds unitsPerOne other.value →
          |found.value - interval.value unitsPerOne| ≤
            |other.value - interval.value unitsPerOne| := by
  intro biased fraction interval found nonzero
  have same : found = shortestIn unitsPerOne finestPlaces interval := by
    refine if_neg ?_
    simp only [Bool.and_eq_true, decide_eq_true_eq, not_and_or]
    exact nonzero
  rw [same]
  exact shortestIn_spec (RoundingInterval.proper_ofBinary64 nonzero) (by decide +kernel)
    (by decide +kernel) (RoundingInterval.centre_add_two_le_high biased fraction)

end Decimal

end ComplexReckoner
