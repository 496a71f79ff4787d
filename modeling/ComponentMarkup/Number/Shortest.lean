import ComponentMarkup.Number.Binary

/-!
# The fewest digits that read back

The decimal numeral of a binary number is the one with the fewest significant
digits among the numerals that round to the number, and of those the nearest.
The search looks at the two neighbours of the number on the grid of numerals
with one digit, with two digits, and so on; seventeen digits are always enough.
All comparisons are between natural numbers, in a unit of which the number, the
ends of its rounding interval and every grid point are multiples.
-/

namespace ComponentMarkup
namespace Binary

/-- The number `coefficient * 10 ^ scale`. -/
structure Decimal where
  coefficient : Nat
  scale : Int
deriving DecidableEq

inductive Tie where
  | upper
  | even
deriving DecidableEq

/-- The reals that round to a number, with the number itself, in a common unit.
The ends belong to the interval when `closed` holds. -/
structure Interval where
  lower : Nat
  value : Nat
  upper : Nat
  closed : Bool

def Interval.holds (i : Interval) (point : Nat) : Bool :=
  if i.closed then i.lower ≤ point && point ≤ i.upper
  else i.lower < point && point < i.upper

/-- The neighbour of the number on a grid that rounds to it, counted in steps of
the grid. -/
def Interval.pick (i : Interval) (tie : Tie) (step : Nat) : Option Nat :=
  let below := i.value / step
  let above := below + 1
  match i.holds (below * step), i.holds (above * step) with
  | false, false => none
  | true, false => some below
  | false, true => some above
  | true, true =>
      let toBelow := i.value - below * step
      let toAbove := above * step - i.value
      if toBelow < toAbove then some below
      else if toAbove < toBelow then some above
      else
        match tie with
        | .upper => some above
        | .even => if below % 2 = 0 then some below else some above

/-- Search ever finer grids; each has a tenth of the step of the grid before. -/
def Interval.search (i : Interval) (tie : Tie) : Nat → Nat → Int → Decimal
  | 0, step, scale => ⟨i.value / step, scale⟩
  | attempts + 1, step, scale =>
      match i.pick tie step with
      | some steps => ⟨steps, scale⟩
      | none => i.search tie attempts (step / 10) (scale - 1)

/-- Whether `10 ^ power` is at most `num / den`. -/
def tenPowerAtMost (power : Int) (num den : Nat) : Bool :=
  den * Nat.pow 10 power.toNat ≤ num * Nat.pow 10 (-power).toNat

/-- The greatest power of ten that is at most `num / den`, both positive. -/
def floorTenPower (num den : Nat) : Int :=
  let guess := (Int.ofNat num.log2 - Int.ofNat den.log2) * 30103 / 100000
  if tenPowerAtMost (guess + 1) num den then guess + 1
  else if tenPowerAtMost guess num den then guess
  else guess - 1

/-- Remove the zeros at the end of the coefficient. -/
def Decimal.strip : Nat → Decimal → Decimal
  | 0, d => d
  | attempts + 1, d =>
      if d.coefficient % 10 = 0 then
        Decimal.strip attempts ⟨d.coefficient / 10, d.scale + 1⟩
      else d

/-- The decimal numeral of the positive finite number with a given code. -/
def shortest (tie : Tie) (code : Nat) : Decimal :=
  let units := significand code
  let unit := exponent code
  let lead := floorTenPower (units * Nat.pow 2 unit.toNat) (Nat.pow 2 (-unit).toNat)
  -- a quarter of the unit and the finest grid become whole
  let twos := (2 - unit).toNat
  let tens := (16 - lead).toNat
  let quarter := Nat.pow 2 (unit - 2 + Int.ofNat twos).toNat * Nat.pow 10 tens
  let interval : Interval :=
    { lower := (4 * units - (if units = stride ∧ -1074 < unit then 1 else 2)) * quarter
      value := 4 * units * quarter
      upper := (4 * units + 2) * quarter
      closed := units % 2 == 0 }
  let step := Nat.pow 10 (lead + Int.ofNat tens).toNat * Nat.pow 2 twos
  (interval.search tie 17 step lead).strip 18

end Binary
end ComponentMarkup
