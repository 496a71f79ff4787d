import ComponentMarkup.Number.Shortest
import ComponentMarkup.Proofs.Number.Rounding

/-!
# Shortest numerals

The search stops on the first grid that has a point between the halves to the neighbours of the
number, and takes the nearest point of that grid.  What lies between the halves is rounded to
the number again.  The finest of the seventeen grids always has such a point, because its step is
smaller than the interval.
-/

namespace ComponentMarkup
namespace Binary

/-- The number that a decimal numeral denotes. -/
def Decimal.exact (d : Decimal) : ℚ :=
  d.coefficient * 10 ^ d.scale

/-! ## The search -/

section Search

variable {i : Interval} {tie : Tie} {step : Nat}

/-- What lies between a point that an interval holds and the number is held too. -/
theorem Interval.holds_between {point other : Nat} (hlower : i.lower < i.value)
    (hupper : i.value < i.upper) (h : i.holds point = true)
    (hlow : point ≤ other ∨ i.value ≤ other) (hhigh : other ≤ point ∨ other ≤ i.value) :
    i.holds other = true := by
  unfold Interval.holds at *
  split at h
  · rw [if_pos ‹_›]
    rw [Bool.and_eq_true, decide_eq_true_eq, decide_eq_true_eq] at h ⊢
    omega
  · rw [if_neg ‹_›]
    rw [Bool.and_eq_true, decide_eq_true_eq, decide_eq_true_eq] at h ⊢
    omega

/-- The point that is picked is a neighbour of the number, and where the other neighbour is held
as well, that one is no nearer. -/
theorem Interval.pick_cases {steps : Nat} (h : i.pick tie step = some steps) :
    steps = i.value / step ∧ i.holds (i.value / step * step) = true ∧
        (i.holds ((i.value / step + 1) * step) = true →
          i.value - i.value / step * step ≤ (i.value / step + 1) * step - i.value) ∨
      steps = i.value / step + 1 ∧ i.holds ((i.value / step + 1) * step) = true ∧
        (i.holds (i.value / step * step) = true →
          (i.value / step + 1) * step - i.value ≤ i.value - i.value / step * step) := by
  unfold Interval.pick at h
  grind

theorem Interval.pick_holds {steps : Nat} (h : i.pick tie step = some steps) :
    i.holds (steps * step) = true := by
  rcases pick_cases h with ⟨rfl, hholds, _⟩ | ⟨rfl, hholds, _⟩
  · exact hholds
  · exact hholds

theorem Interval.pick_eq_none (h : i.pick tie step = none) :
    i.holds (i.value / step * step) = false ∧ i.holds ((i.value / step + 1) * step) = false := by
  unfold Interval.pick at h
  grind

theorem neighbours (value : Nat) (hstep : 0 < step) :
    value / step * step ≤ value ∧ value < (value / step + 1) * step := by
  have hsplit := Nat.div_add_mod' value step
  have hrest := Nat.mod_lt value hstep
  rw [Nat.add_mul, Nat.one_mul]
  omega

variable (hlower : i.lower < i.value) (hupper : i.value < i.upper) (hstep : 0 < step)

include hlower hupper hstep

/-- A held point of the grid lies behind a held neighbour of the number, or is one. -/
theorem Interval.neighbour_of_holds {steps : Nat} (h : i.holds (steps * step) = true) :
    steps * step ≤ i.value / step * step ∧ i.holds (i.value / step * step) = true ∨
      (i.value / step + 1) * step ≤ steps * step ∧
        i.holds ((i.value / step + 1) * step) = true := by
  obtain ⟨hfloor, hceil⟩ := neighbours i.value hstep
  rcases Nat.lt_or_ge (i.value / step) steps with hgt | hle
  · have hpoint : (i.value / step + 1) * step ≤ steps * step := Nat.mul_le_mul_right step hgt
    exact .inr ⟨hpoint, holds_between hlower hupper h (.inr hceil.le) (.inl hpoint)⟩
  · have hpoint : steps * step ≤ i.value / step * step := Nat.mul_le_mul_right step hle
    exact .inl ⟨hpoint, holds_between hlower hupper h (.inl hpoint) (.inr hfloor)⟩

/-- Where no neighbour of the number is picked, no point of the grid is held. -/
theorem Interval.not_holds_of_pick_eq_none (h : i.pick tie step = none) (steps : Nat) :
    i.holds (steps * step) = false := by
  obtain ⟨hbelow, habove⟩ := pick_eq_none h
  rw [Bool.eq_false_iff]
  intro hholds
  rcases neighbour_of_holds hlower hupper hstep hholds with ⟨_, hheld⟩ | ⟨_, hheld⟩
  · rw [hheld] at hbelow
    cases hbelow
  · rw [hheld] at habove
    cases habove

/-- The point that is picked is the nearest one of the grid that is held. -/
theorem Interval.pick_nearest {steps other : Nat} (h : i.pick tie step = some steps)
    (hother : i.holds (other * step) = true) :
    |((steps * step : Nat) : ℤ) - i.value| ≤ |((other * step : Nat) : ℤ) - i.value| := by
  obtain ⟨hfloor, hceil⟩ := neighbours i.value hstep
  have hneighbour := neighbour_of_holds hlower hupper hstep hother
  rw [Int.abs_eq_natAbs, Int.abs_eq_natAbs]
  rcases pick_cases h with ⟨rfl, _, hnearer⟩ | ⟨rfl, _, hnearer⟩
  · rcases hneighbour with ⟨hpoint, _⟩ | ⟨hpoint, hheld⟩
    · omega
    · have hle := hnearer hheld
      omega
  · rcases hneighbour with ⟨hpoint, hheld⟩ | ⟨hpoint, _⟩
    · have hle := hnearer hheld
      omega
    · omega

/-- A grid whose step is smaller than the interval has a point in it. -/
theorem Interval.pick_ne_none (hwide : i.lower + step < i.upper) : i.pick tie step ≠ none := by
  obtain ⟨hfloor, hceil⟩ := neighbours i.value hstep
  have hinside : ∀ point, i.lower < point → point < i.upper → i.holds point = true := by
    intro point hlow hhigh
    unfold Interval.holds
    split
    · rw [Bool.and_eq_true, decide_eq_true_eq, decide_eq_true_eq]
      exact ⟨hlow.le, hhigh.le⟩
    · rw [Bool.and_eq_true, decide_eq_true_eq, decide_eq_true_eq]
      exact ⟨hlow, hhigh⟩
  have hgap : (i.value / step + 1) * step = i.value / step * step + step := Nat.succ_mul _ step
  intro hnone
  obtain ⟨hbelow, habove⟩ := pick_eq_none hnone
  by_cases hlow : i.lower < i.value / step * step
  · rw [hinside _ hlow (by omega)] at hbelow
    cases hbelow
  · rw [hinside _ (by omega) (by omega)] at habove
    cases habove

omit hlower hupper hstep

theorem Interval.pick_first {steps : Nat} (h : i.pick tie step = some steps) :
    i.pick tie (step / 10 ^ 0) = some steps ∧ ∀ k < 0, i.pick tie (step / 10 ^ k) = none := by
  rw [pow_zero, Nat.div_one]
  exact ⟨h, fun k hk => absurd hk (Nat.not_lt_zero k)⟩

/-- The search stops on the first grid that has a point in the interval, if the finest one has
one. -/
theorem Interval.search_first (attempts : Nat) (step : Nat) (scale : Int)
    (h : i.pick tie (step / 10 ^ attempts) ≠ none) :
    ∃ j ≤ attempts, ∃ steps, i.search tie (attempts + 1) step scale = ⟨steps, scale - j⟩ ∧
      i.pick tie (step / 10 ^ j) = some steps ∧ ∀ k < j, i.pick tie (step / 10 ^ k) = none := by
  induction attempts generalizing step scale with
  | zero =>
      rw [pow_zero, Nat.div_one] at h
      obtain ⟨steps, hpick⟩ := Option.ne_none_iff_exists'.mp h
      refine ⟨0, Nat.le_refl 0, steps, ?_, pick_first hpick⟩
      rw [Interval.search, hpick, Nat.cast_zero, sub_zero]
  | succ attempts ih =>
      have hfiner : ∀ k, step / 10 ^ (k + 1) = step / 10 / 10 ^ k := by
        intro k
        rw [pow_succ', ← Nat.div_div_eq_div_mul]
      rw [Interval.search]
      cases hpick : i.pick tie step with
      | some steps =>
          exact ⟨0, Nat.zero_le _, steps, by rw [Nat.cast_zero, sub_zero], pick_first hpick⟩
      | none =>
          rw [hfiner] at h
          obtain ⟨j, hj, steps, hsearch, hfound, hcoarser⟩ := ih (step / 10) (scale - 1) h
          refine ⟨j + 1, Nat.succ_le_succ hj, steps, ?_, ?_, ?_⟩
          · rw [hsearch, Nat.cast_succ, sub_sub, add_comm (1 : Int)]
          · rw [hfiner]
            exact hfound
          · intro k hk
            cases k with
            | zero =>
                rw [pow_zero, Nat.div_one]
                exact hpick
            | succ k =>
                rw [hfiner]
                exact hcoarser k (Nat.lt_of_succ_lt_succ hk)

end Search

theorem Decimal.strip_exact (attempts : Nat) (d : Decimal) :
    (Decimal.strip attempts d).exact = d.exact := by
  induction attempts generalizing d with
  | zero => rfl
  | succ attempts ih =>
      rw [Decimal.strip]
      split
      · rename_i hzero
        rw [ih]
        have htens : d.coefficient = 10 * (d.coefficient / 10) := by omega
        have hcast : (d.coefficient : ℚ) = 10 * (d.coefficient / 10 : Nat) := by
          exact_mod_cast htens
        unfold Decimal.exact
        dsimp only
        rw [zpow_add_one₀ (by norm_num), hcast]
        ring
      · rfl

/-! ## The exponent of the first digit -/

section Powers

variable {k m : Int}

theorem zpow_pow_comm (base : ℚ) (count : Nat) (power : Int) :
    (base ^ power) ^ count = (base ^ count) ^ power := by
  rw [← zpow_natCast, ← zpow_mul, mul_comm, zpow_mul, zpow_natCast]

theorem zpow_le_zpow_of_nonpos {a b : ℚ} (ha : 0 < a) (hab : a ≤ b) (hk : k ≤ 0) :
    b ^ k ≤ a ^ k := by
  have hinverse := zpow_le_zpow_left₀ (show 0 ≤ -k by omega) ha.le hab
  rw [zpow_neg, zpow_neg] at hinverse
  exact (inv_le_inv₀ (zpow_pos ha k) (zpow_pos (ha.trans_le hab) k)).mp hinverse

/-- Two comparisons of whole powers decide the others closely enough. -/
theorem ten_zpow_le_two_zpow (hup : 0 ≤ k → 196 * k ≤ 59 * m) (hdown : k ≤ 0 → 93 * k ≤ 28 * m) :
    (10 : ℚ) ^ k ≤ 2 ^ m := by
  rcases le_total 0 k with hk | hk
  · rw [← pow_le_pow_iff_left₀ (by positivity) (by positivity) (show 59 ≠ 0 by decide)]
    calc ((10 : ℚ) ^ k) ^ 59 = (10 ^ 59) ^ k := zpow_pow_comm _ _ _
      _ ≤ (2 ^ 196) ^ k := zpow_le_zpow_left₀ hk (by norm_num) (by norm_num)
      _ = 2 ^ (196 * k) := by rw [zpow_mul]; norm_num
      _ ≤ 2 ^ (59 * m) := zpow_le_zpow_right₀ (by norm_num) (hup hk)
      _ = (2 ^ m) ^ 59 := by rw [zpow_pow_comm, zpow_mul]; norm_num
  · rw [← pow_le_pow_iff_left₀ (by positivity) (by positivity) (show 28 ≠ 0 by decide)]
    calc ((10 : ℚ) ^ k) ^ 28 = (10 ^ 28) ^ k := zpow_pow_comm _ _ _
      _ ≤ (2 ^ 93) ^ k := zpow_le_zpow_of_nonpos (by norm_num) (by norm_num) hk
      _ = 2 ^ (93 * k) := by rw [zpow_mul]; norm_num
      _ ≤ 2 ^ (28 * m) := zpow_le_zpow_right₀ (by norm_num) (hdown hk)
      _ = (2 ^ m) ^ 28 := by rw [zpow_pow_comm, zpow_mul]; norm_num

theorem two_zpow_le_ten_zpow (hup : 0 ≤ k → 28 * m ≤ 93 * k) (hdown : k ≤ 0 → 59 * m ≤ 196 * k) :
    (2 : ℚ) ^ m ≤ 10 ^ k := by
  rcases le_total 0 k with hk | hk
  · rw [← pow_le_pow_iff_left₀ (by positivity) (by positivity) (show 28 ≠ 0 by decide)]
    calc ((2 : ℚ) ^ m) ^ 28 = 2 ^ (28 * m) := by rw [zpow_pow_comm, zpow_mul]; norm_num
      _ ≤ 2 ^ (93 * k) := zpow_le_zpow_right₀ (by norm_num) (hup hk)
      _ = (2 ^ 93) ^ k := by rw [zpow_mul]; norm_num
      _ ≤ (10 ^ 28) ^ k := zpow_le_zpow_left₀ hk (by norm_num) (by norm_num)
      _ = (10 ^ k) ^ 28 := (zpow_pow_comm _ _ _).symm
  · rw [← pow_le_pow_iff_left₀ (by positivity) (by positivity) (show 59 ≠ 0 by decide)]
    calc ((2 : ℚ) ^ m) ^ 59 = 2 ^ (59 * m) := by rw [zpow_pow_comm, zpow_mul]; norm_num
      _ ≤ 2 ^ (196 * k) := zpow_le_zpow_right₀ (by norm_num) (hdown hk)
      _ = (2 ^ 196) ^ k := by rw [zpow_mul]; norm_num
      _ ≤ (10 ^ 59) ^ k := zpow_le_zpow_of_nonpos (by norm_num) (by norm_num) hk
      _ = (10 ^ k) ^ 59 := (zpow_pow_comm _ _ _).symm

end Powers

/-- The greatest power of ten that is at most a number of moderate size. -/
theorem floorTenPower_bounds {num den : Nat} (hnum : 0 < num) (hden : 0 < den)
    (hlower : (2 : ℚ) ^ (-1074 : Int) ≤ num / den) (hupper : (num / den : ℚ) < 2 ^ (1024 : Int)) :
    (10 : ℚ) ^ floorTenPower num den ≤ num / den ∧
      (num / den : ℚ) < 10 ^ (floorTenPower num den + 1) := by
  have hatMost : ∀ power, tenPowerAtMost power num den = true ↔ (10 : ℚ) ^ power ≤ num / den := by
    intro power
    rw [tenPowerAtMost, decide_eq_true_eq]
    exact_mod_cast zpow_le_fraction_iff (by decide) power num hden
  obtain ⟨hlow, hhigh⟩ := log2_bounds hnum hden
  unfold floorTenPower
  simp only [Int.ofNat_eq_natCast, hatMost]
  generalize (num.log2 : Int) - den.log2 = length at *
  have hmost : length - 1 < 1024 :=
    (zpow_lt_zpow_iff_right₀ (show (1 : ℚ) < 2 by norm_num)).mp (hlow.trans hupper)
  have hleast : -1074 < length + 1 :=
    (zpow_lt_zpow_iff_right₀ (show (1 : ℚ) < 2 by norm_num)).mp (hlower.trans_lt hhigh)
  split
  · rename_i h
    exact ⟨h, hhigh.trans_le (two_zpow_le_ten_zpow (by omega) (by omega))⟩
  · rename_i hnext
    rw [not_le] at hnext
    split
    · rename_i h
      exact ⟨h, hnext⟩
    · rename_i h
      rw [not_le] at h
      refine ⟨(ten_zpow_le_two_zpow (by omega) (by omega)).trans hlow.le, ?_⟩
      rwa [sub_add_cancel]

/-! ## The interval of a number -/

/-- How many quarters of the unit lie between a number and the half to the number below it: the
number below is nearer where the unit changes. -/
def quartersBelow (code : Nat) : Nat :=
  if significand code = stride ∧ -1074 < exponent code then 1 else 2

theorem two_zpow_eq_quarters (unit : Int) : (2 : ℚ) ^ unit = 4 * 2 ^ (unit - 2) := by
  rw [show (4 : ℚ) = 2 ^ (2 : Int) by norm_num, ← zpow_add₀ (by norm_num)]
  congr 1
  ring

theorem low_exponent (code : Nat) : -1074 ≤ exponent code := by
  unfold exponent stride
  simp only [Int.ofNat_eq_natCast]
  split <;> omega

theorem significand_lt (code : Nat) : significand code < 2 * stride := by
  unfold significand stride
  split <;> omega

theorem significand_pos {code : Nat} (h : 0 < code) : 0 < significand code := by
  unfold significand stride
  split <;> omega

/-- The half to the number below. -/
theorem magnitude_add_below {below code : Nat} (h : below + 1 = code) :
    magnitude below + magnitude code =
      2 * ((4 * significand code - quartersBelow code) * 2 ^ (exponent code - 2)) := by
  have hstep : (2 : ℚ) ^ exponent below = 2 * quartersBelow code * 2 ^ (exponent code - 2) := by
    unfold quartersBelow
    rcases parts_succ below with ⟨hunits, hunit⟩ | ⟨_, hunits, hunit⟩
    · rw [h] at hunits hunit
      have hsame : ¬ (significand code = stride ∧ -1074 < exponent code) := by
        rw [hunits, hunit]
        unfold significand exponent stride
        split <;> omega
      rw [if_neg hsame, ← hunit, two_zpow_eq_quarters]
      norm_num
    · rw [h] at hunits hunit
      have hlow := low_exponent below
      rw [if_pos ⟨hunits, by omega⟩, show exponent below = exponent code - 1 by omega,
        two_zpow_eq_quarters, show exponent code - 1 - 2 = exponent code - 2 - 1 by omega,
        zpow_sub_one₀ (by norm_num)]
      push_cast
      ring
  have hnext := magnitude_succ below
  rw [h, hstep] at hnext
  have hvalue : magnitude code = significand code * (4 * 2 ^ (exponent code - 2)) := by
    rw [magnitude, two_zpow_eq_quarters]
  linear_combination 2 * hvalue - hnext

/-- The half to the number above. -/
theorem magnitude_add_above (code : Nat) :
    magnitude code + magnitude (code + 1) =
      2 * ((4 * significand code + 2) * 2 ^ (exponent code - 2)) := by
  rw [magnitude_succ, magnitude, two_zpow_eq_quarters]
  ring

/-- The seventeenth digit counts less than the interval is wide. -/
theorem ten_zpow_lt_width {code : Nat} {lead : Int} (h : (10 : ℚ) ^ lead ≤ magnitude code) :
    (10 : ℚ) ^ (lead - 16) < (quartersBelow code + 2) * 2 ^ (exponent code - 2) := by
  have hquarter : (0 : ℚ) < 2 ^ (exponent code - 2) := by positivity
  have hunits : (4 * significand code : ℚ) < (quartersBelow code + 2) * 10 ^ 16 := by
    have hlt := significand_lt code
    have hnat : 4 * significand code < (quartersBelow code + 2) * 10 ^ 16 := by
      unfold quartersBelow stride at *
      split <;> omega
    exact_mod_cast hnat
  rw [magnitude, two_zpow_eq_quarters] at h
  rw [zpow_sub₀ (by norm_num), div_lt_iff₀ (by positivity)]
  calc (10 : ℚ) ^ lead ≤ significand code * (4 * 2 ^ (exponent code - 2)) := h
    _ = 4 * significand code * 2 ^ (exponent code - 2) := by ring
    _ < (quartersBelow code + 2) * 10 ^ 16 * 2 ^ (exponent code - 2) :=
        mul_lt_mul_of_pos_right hunits hquarter
    _ = (quartersBelow code + 2) * 2 ^ (exponent code - 2) * 10 ^ (16 : Int) := by
        norm_num
        ring

/-- What is rounded to a code lies in its interval, without the ends where the code is odd. -/
theorem roundsTo_iff {code : Nat} (hpos : 0 < code) {y : ℚ} :
    RoundsTo y code ↔
      (4 * significand code - quartersBelow code) * (2 : ℚ) ^ (exponent code - 2) ≤ y ∧
      y ≤ (4 * significand code + 2) * (2 : ℚ) ^ (exponent code - 2) ∧
      (y = (4 * significand code - quartersBelow code) * (2 : ℚ) ^ (exponent code - 2) ∨
        y = (4 * significand code + 2) * (2 : ℚ) ^ (exponent code - 2) →
          significand code % 2 = 0) := by
  have hparity : code % 2 = significand code % 2 := by
    rw [← compose_mod_two (significand code) (exponent code), compose_significand_exponent]
  rw [← hparity]
  constructor
  · rintro ⟨hlower, hupper⟩
    obtain ⟨below, hbelow⟩ := Nat.exists_eq_succ_of_ne_zero hpos.ne'
    have hlower := hlower below hbelow.symm
    rw [magnitude_add_below hbelow.symm] at hlower
    rw [magnitude_add_above] at hupper
    refine ⟨by linarith, by linarith, fun hend => ?_⟩
    rcases hend with hend | hend
    · exact hlower.2 (by rw [hend])
    · exact hupper.2 (by rw [hend])
  · rintro ⟨hlower, hupper, heven⟩
    constructor
    · intro below hbelow
      rw [magnitude_add_below hbelow]
      exact ⟨by linarith, fun htie => heven (.inl (by linarith))⟩
    · rw [magnitude_add_above]
      exact ⟨by linarith, fun htie => heven (.inr (by linarith))⟩

/-! ## The shortest numeral -/

/-- The interval of a code in a unit of which a quarter of the code's unit is a multiple. -/
def scaledInterval (code quarter : Nat) : Interval where
  lower := (4 * significand code - quartersBelow code) * quarter
  value := 4 * significand code * quarter
  upper := (4 * significand code + 2) * quarter
  closed := significand code % 2 == 0

section Scaled

variable {code quarter : Nat} {factor : ℚ} (hpos : 0 < code) (hfactor : 0 < factor)
  (hquarter : (quarter : ℚ) = 2 ^ (exponent code - 2) * factor)

theorem quartersBelow_bounds (code : Nat) : 0 < quartersBelow code ∧ quartersBelow code ≤ 2 := by
  unfold quartersBelow
  split <;> decide

include hpos in
theorem cast_quarters : ((4 * significand code - quartersBelow code : Nat) : ℚ) =
    4 * significand code - quartersBelow code := by
  have hunits := significand_pos hpos
  have hbelow := (quartersBelow_bounds code).2
  rw [Nat.cast_sub (by omega)]
  push_cast
  ring

include hfactor hquarter in
theorem quarter_pos : 0 < quarter := by
  have hcast : (0 : ℚ) < quarter := by
    rw [hquarter]
    positivity
  exact_mod_cast hcast

include hpos hfactor hquarter in
theorem scaledInterval_bounds :
    (scaledInterval code quarter).lower < (scaledInterval code quarter).value ∧
      (scaledInterval code quarter).value < (scaledInterval code quarter).upper := by
  have hunits := significand_pos hpos
  have hbelow := quartersBelow_bounds code
  have hquarterPos := quarter_pos hfactor hquarter
  exact ⟨Nat.mul_lt_mul_of_pos_right (by omega) hquarterPos,
    Nat.mul_lt_mul_of_pos_right (by omega) hquarterPos⟩

theorem Interval.holds_iff {i : Interval} {point : Nat} :
    i.holds point = true ↔ i.lower ≤ point ∧ point ≤ i.upper ∧
      (point = i.lower ∨ point = i.upper → i.closed = true) := by
  unfold Interval.holds
  split
  · rename_i hclosed
    simp [hclosed]
  · rename_i hopen
    rw [Bool.and_eq_true, decide_eq_true_eq, decide_eq_true_eq]
    constructor
    · rintro ⟨hlower, hupper⟩
      exact ⟨hlower.le, hupper.le, fun hend => by omega⟩
    · rintro ⟨hlower, hupper, hends⟩
      have hinside : ¬ (point = i.lower ∨ point = i.upper) := fun hend => hopen (hends hend)
      omega

include hpos hfactor hquarter in
/-- The interval holds the points that are rounded to the code. -/
theorem holds_scaledInterval_iff {point : Nat} {y : ℚ} (hpoint : (point : ℚ) = y * factor) :
    (scaledInterval code quarter).holds point = true ↔ RoundsTo y code := by
  have hcast : ∀ quarters : Nat, ((quarters * quarter : Nat) : ℚ) =
      quarters * 2 ^ (exponent code - 2) * factor := by
    intro quarters
    rw [Nat.cast_mul, hquarter, mul_assoc]
  have hle : ∀ quarters : Nat, quarters * quarter ≤ point ↔
      quarters * (2 : ℚ) ^ (exponent code - 2) ≤ y := by
    intro quarters
    rw [← @Nat.cast_le ℚ, hcast, hpoint, mul_le_mul_iff_left₀ hfactor]
  have hge : ∀ quarters : Nat, point ≤ quarters * quarter ↔
      y ≤ quarters * (2 : ℚ) ^ (exponent code - 2) := by
    intro quarters
    rw [← @Nat.cast_le ℚ, hcast, hpoint, mul_le_mul_iff_left₀ hfactor]
  have heq : ∀ quarters : Nat, point = quarters * quarter ↔
      y = quarters * (2 : ℚ) ^ (exponent code - 2) := by
    intro quarters
    rw [← @Nat.cast_inj ℚ, hcast, hpoint, mul_left_inj' hfactor.ne']
  have habove : ((4 * significand code + 2 : Nat) : ℚ) = 4 * significand code + 2 := by
    push_cast
    ring
  rw [Interval.holds_iff, roundsTo_iff hpos, ← cast_quarters hpos, ← habove]
  simp only [scaledInterval, hle, hge, heq, beq_iff_eq]

include hpos hfactor hquarter in
theorem pick_scaledInterval (tie : Tie) {step : Nat} {width : ℚ}
    (hstep : (step : ℚ) = width * factor) (hpositive : 0 < step)
    (hfine : width < (quartersBelow code + 2) * 2 ^ (exponent code - 2)) :
    (scaledInterval code quarter).pick tie step ≠ none := by
  have hunits := significand_pos hpos
  have hbelow := quartersBelow_bounds code
  obtain ⟨hlower, hupper⟩ := scaledInterval_bounds hpos hfactor hquarter
  have hsmall : step < (quartersBelow code + 2) * quarter := by
    have hcast : (step : ℚ) < (quartersBelow code + 2) * quarter := by
      rw [hstep, hquarter, ← mul_assoc]
      exact mul_lt_mul_of_pos_right hfine hfactor
    exact_mod_cast hcast
  apply Interval.pick_ne_none hlower hupper hpositive
  calc (4 * significand code - quartersBelow code) * quarter + step
      < (4 * significand code - quartersBelow code) * quarter +
          (quartersBelow code + 2) * quarter := Nat.add_lt_add_left hsmall _
    _ = (4 * significand code + 2) * quarter := by
        rw [← Nat.add_mul]
        congr 1
        omega

end Scaled

/-! ### The unit of the comparisons -/

/-- The quarter of a code's unit is whole in the unit of the comparisons. -/
theorem cast_quarter (unit : Int) (tens : Nat) :
    ((Nat.pow 2 (unit - 2 + Int.ofNat (2 - unit).toNat).toNat * Nat.pow 10 tens : Nat) : ℚ) =
      2 ^ (unit - 2) * (2 ^ (2 - unit).toNat * 10 ^ tens) := by
  rw [Nat.pow_eq, Nat.pow_eq]
  push_cast
  rw [← mul_assoc, ← zpow_natCast 2 (2 - unit).toNat, ← zpow_add₀ (by norm_num), ← zpow_natCast]
  congr 2
  simp only [Int.ofNat_eq_natCast]
  omega

/-- The steps of the seventeen grids are whole in the unit of the comparisons. -/
theorem cast_grid (lead : Int) (twos : Nat) {j : Nat} (hj : j ≤ 16) :
    ((Nat.pow 10 (lead + Int.ofNat (16 - lead).toNat).toNat * Nat.pow 2 twos / 10 ^ j : Nat) : ℚ) =
      10 ^ (lead - j) * (2 ^ twos * 10 ^ (16 - lead).toNat) := by
  obtain ⟨more, hmore⟩ : ∃ more, (lead + Int.ofNat (16 - lead).toNat).toNat = j + more :=
    Nat.exists_eq_add_of_le (by simp only [Int.ofNat_eq_natCast]; omega)
  rw [Nat.pow_eq, Nat.pow_eq, hmore, pow_add, mul_assoc,
    Nat.mul_div_cancel_left _ (by positivity)]
  push_cast
  rw [mul_left_comm, mul_comm ((10 : ℚ) ^ more), ← zpow_natCast 10 (16 - lead).toNat,
    ← zpow_add₀ (by norm_num), ← zpow_natCast 10 more]
  congr 2
  simp only [Int.ofNat_eq_natCast] at hmore
  omega

/-- The search starts with the exponent of the first digit. -/
theorem lead_bounds {code : Nat} (hpos : 0 < code) (hlt : code < infinity) {lead : Int}
    (hlead : floorTenPower (significand code * Nat.pow 2 (exponent code).toNat)
      (Nat.pow 2 (-exponent code).toNat) = lead) :
    (10 : ℚ) ^ lead ≤ magnitude code ∧ magnitude code < 10 ^ (lead + 1) := by
  have hnum : 0 < significand code * Nat.pow 2 (exponent code).toNat :=
    Nat.mul_pos (significand_pos hpos) (Nat.pow_pos (by decide))
  have hden : 0 < Nat.pow 2 (-exponent code).toNat := Nat.pow_pos (by decide)
  have hvalue : _ = magnitude code :=
    fraction_eq_mul_zpow (by decide : 0 < 2) (significand code) (exponent code)
  rw [← hvalue, ← hlead]
  apply floorTenPower_bounds hnum hden
  · rw [hvalue, ← magnitude_one]
    exact strictMono_magnitude.monotone hpos
  · rw [hvalue, ← magnitude_infinity]
    exact strictMono_magnitude hlt

/-- What the search finds: a multiple of `10 ^ (lead - j)` that is rounded to the number, where
`10 ^ lead` is the place of the first digit.  No coarser grid has such a point, and no point of
this grid is nearer. -/
structure Found (code : Nat) (lead : Int) (j steps : Nat) : Prop where
  lead_le : (10 : ℚ) ^ lead ≤ magnitude code
  lt_next : magnitude code < 10 ^ (lead + 1)
  roundsTo : RoundsTo (steps * 10 ^ (lead - j)) code
  coarser : ∀ k < j, ∀ other : Nat, ¬ RoundsTo (other * 10 ^ (lead - k)) code
  nearest : ∀ other : Nat, RoundsTo (other * 10 ^ (lead - j)) code →
    |steps * 10 ^ (lead - j) - magnitude code| ≤ |other * 10 ^ (lead - j) - magnitude code|

/-- In a common unit of the interval and the grids, the search finds such a point. -/
theorem search_found (tie : Tie) {code quarter step : Nat} {lead : Int} {factor : ℚ}
    (hpos : 0 < code) (hfactor : 0 < factor)
    (hquarter : (quarter : ℚ) = 2 ^ (exponent code - 2) * factor)
    (hgrid : ∀ j : Nat, j ≤ 16 → ((step / 10 ^ j : Nat) : ℚ) = 10 ^ (lead - j) * factor)
    (hlead : (10 : ℚ) ^ lead ≤ magnitude code) (hnext : magnitude code < 10 ^ (lead + 1)) :
    ∃ j ≤ 16, ∃ steps, Found code lead j steps ∧
      (scaledInterval code quarter).search tie 17 step lead = ⟨steps, lead - j⟩ := by
  obtain ⟨hlower, hupper⟩ := scaledInterval_bounds hpos hfactor hquarter
  have hstep : ∀ j : Nat, j ≤ 16 → 0 < step / 10 ^ j := by
    intro j hj
    have hcast : (0 : ℚ) < (step / 10 ^ j : Nat) := by
      rw [hgrid j hj]
      positivity
    exact_mod_cast hcast
  have hpoint : ∀ j : Nat, j ≤ 16 → ∀ other : Nat, ((other * (step / 10 ^ j) : Nat) : ℚ) =
      other * 10 ^ (lead - j) * factor := by
    intro j hj other
    rw [Nat.cast_mul, hgrid j hj, mul_assoc]
  have hvalue : ((scaledInterval code quarter).value : ℚ) = magnitude code * factor := by
    rw [scaledInterval, magnitude, two_zpow_eq_quarters]
    push_cast
    rw [hquarter]
    ring
  have hfinest : (scaledInterval code quarter).pick tie (step / 10 ^ 16) ≠ none :=
    pick_scaledInterval hpos hfactor hquarter tie (hgrid 16 (Nat.le_refl 16))
      (hstep 16 (Nat.le_refl 16)) (ten_zpow_lt_width hlead)
  obtain ⟨j, hj, steps, hsearch, hpick, hcoarser⟩ := Interval.search_first 16 step lead hfinest
  refine ⟨j, hj, steps, ⟨hlead, hnext, ?_, ?_, ?_⟩, hsearch⟩
  · rw [← holds_scaledInterval_iff hpos hfactor hquarter (hpoint j hj steps)]
    exact Interval.pick_holds hpick
  · intro k hk other
    have hle : k ≤ 16 := by omega
    rw [← holds_scaledInterval_iff hpos hfactor hquarter (hpoint k hle other), Bool.not_eq_true]
    exact Interval.not_holds_of_pick_eq_none hlower hupper (hstep k hle) (hcoarser k hk) other
  · intro other hother
    rw [← holds_scaledInterval_iff hpos hfactor hquarter (hpoint j hj other)] at hother
    have hdistance := Interval.pick_nearest hlower hupper (hstep j hj) hpick hother
    rw [← @Int.cast_le ℚ, Int.cast_abs, Int.cast_abs, Int.cast_sub, Int.cast_sub,
      Int.cast_natCast, Int.cast_natCast, Int.cast_natCast, hpoint j hj, hpoint j hj, hvalue,
      ← sub_mul, ← sub_mul, abs_mul, abs_mul] at hdistance
    exact le_of_mul_le_mul_right hdistance (abs_pos.mpr hfactor.ne')

/-- The shortest numeral is what the search finds, without zeros at the end. -/
theorem shortest_found (tie : Tie) {code : Nat} (hpos : 0 < code) (hlt : code < infinity) :
    ∃ lead j steps, Found code lead j steps ∧ j ≤ 16 ∧
      shortest tie code = Decimal.strip 18 ⟨steps, lead - j⟩ := by
  unfold shortest
  dsimp only
  generalize hlead : floorTenPower (significand code * Nat.pow 2 (exponent code).toNat)
    (Nat.pow 2 (-exponent code).toNat) = lead
  obtain ⟨hle, hnext⟩ := lead_bounds hpos hlt hlead
  obtain ⟨j, hj, steps, hfound, hsearch⟩ := search_found tie hpos (by positivity)
    (cast_quarter (exponent code) (16 - lead).toNat)
    (fun j hj => cast_grid lead (2 - exponent code).toNat hj) hle hnext
  exact ⟨lead, j, steps, hfound, hj, congrArg _ hsearch⟩

theorem shortest_roundsTo (tie : Tie) {code : Nat} (hpos : 0 < code) (hlt : code < infinity) :
    RoundsTo (shortest tie code).exact code := by
  obtain ⟨lead, j, steps, hfound, _, hshortest⟩ := shortest_found tie hpos hlt
  rw [hshortest, Decimal.strip_exact]
  exact hfound.roundsTo

end Binary
end ComponentMarkup
