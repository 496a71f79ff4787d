import ComponentMarkup.Proofs.Number.Layouts

/-!
# The fewest digits

No numeral that is rounded to a number has fewer digits than the one the search finds, and none
with as many digits is nearer.  A numeral whose first digit is in another place than the first
digit of the number has a power of ten between itself and the number, and the powers of ten in
question are points of every grid.
-/

namespace ComponentMarkup
namespace Binary

/-- Whether a decimal numeral is a shortest one for a code: it is rounded to the code, no other
one that is rounded to it has fewer digits, and none with as many digits is nearer. -/
structure IsShortest (d : Decimal) (code : Nat) : Prop where
  isNearest : IsNearest d.exact code
  fewest : ∀ other : Decimal, IsNearest other.exact code → d.digits.length ≤ other.digits.length
  nearest : ∀ other : Decimal, IsNearest other.exact code →
    other.digits.length = d.digits.length →
      |d.exact - magnitude code| ≤ |other.exact - magnitude code|

/-! ## Counting digits -/

theorem Decimal.length_digits_le_iff {d : Decimal} {count : Nat} (hcount : 0 < count) :
    d.digits.length ≤ count ↔ d.coefficient < 10 ^ count :=
  Nat.length_toDigits_le_iff (by decide) hcount

theorem Decimal.length_digits_pos (d : Decimal) : 0 < d.digits.length :=
  List.length_pos_iff.mpr (Numeral.isRow_toDigits d.coefficient).ne_nil

theorem Decimal.strip_coefficient_le (attempts : Nat) (d : Decimal) :
    (Decimal.strip attempts d).coefficient ≤ d.coefficient := by
  induction attempts generalizing d with
  | zero => exact Nat.le_refl d.coefficient
  | succ attempts ih =>
      rw [Decimal.strip]
      split
      · exact (ih _).trans (Nat.div_le_self d.coefficient 10)
      · exact Nat.le_refl d.coefficient

/-- Of a power of ten only the first digit is left. -/
theorem Decimal.strip_pow_coefficient {attempts zeros : Nat} (h : zeros ≤ attempts)
    (scale : Int) : (Decimal.strip attempts ⟨10 ^ zeros, scale⟩).coefficient = 1 := by
  induction zeros generalizing attempts scale with
  | zero =>
      cases attempts with
      | zero => rfl
      | succ attempts => rfl
  | succ zeros ih =>
      obtain ⟨fewer, rfl⟩ := Nat.exists_eq_add_of_le' h
      rw [← Nat.add_assoc, Decimal.strip, if_pos (by rw [pow_succ, Nat.mul_mod_left])]
      dsimp only
      rw [pow_succ, Nat.mul_div_cancel _ (by decide)]
      exact ih (Nat.le_add_left zeros fewer) (scale + 1)

/-- A power of ten needs one digit only, so it may be one more than the digits allow. -/
theorem Decimal.length_digits_strip_le {attempts count coefficient : Nat} (hcount : 0 < count)
    (hattempts : count ≤ attempts) (h : coefficient ≤ 10 ^ count) (scale : Int) :
    (Decimal.strip attempts ⟨coefficient, scale⟩).digits.length ≤ count := by
  rw [Decimal.length_digits_le_iff hcount]
  rcases h.lt_or_eq with hlt | rfl
  · exact (Decimal.strip_coefficient_le attempts _).trans_lt hlt
  · rw [Decimal.strip_pow_coefficient hattempts]
    exact Nat.one_lt_pow hcount.ne' (by decide)

/-! ## Points of the grids -/

section Grids

variable {code : Nat} {lead : Int}

/-- The power of ten below the number is a point of every grid, and so is the one above. -/
theorem ten_zpow_mul_grid (lead : Int) (j k : Nat) :
    ((10 ^ (j + k) : Nat) : ℚ) * 10 ^ (lead - j) = 10 ^ (lead + k) := by
  rw [Nat.cast_pow, Nat.cast_ofNat, ← zpow_natCast, ← zpow_add₀ (by norm_num)]
  congr 1
  push_cast
  ring

/-- Of what is rounded to a number, the grid with as many digits has a point that is no farther
from the number. -/
theorem exists_gridPoint (hlead : (10 : ℚ) ^ lead ≤ magnitude code)
    (hnext : magnitude code < 10 ^ (lead + 1)) {other : Decimal} {j : Nat}
    (hother : RoundsTo other.exact code) (hpos : 0 < other.coefficient)
    (hdigits : other.digits.length = j + 1) :
    ∃ point : Nat, RoundsTo (point * 10 ^ (lead - j)) code ∧
      |point * 10 ^ (lead - j) - magnitude code| ≤ |other.exact - magnitude code| := by
  obtain ⟨hleast, hmost⟩ := Decimal.exact_bounds hpos
  rcases lt_trichotomy other.lead lead with hsmaller | hsame | hgreater
  · have hpower : other.exact ≤ (10 : ℚ) ^ lead :=
      hmost.le.trans (zpow_le_zpow_right₀ (by norm_num) hsmaller)
    have hpoint := ten_zpow_mul_grid lead j 0
    rw [Nat.add_zero, Nat.cast_zero, add_zero] at hpoint
    refine ⟨10 ^ j, ?_, ?_⟩
    · rw [hpoint]
      exact hother.of_between (.inl hpower) (.inr hlead)
    · rw [hpoint, abs_sub_comm, abs_sub_comm other.exact, abs_of_nonneg (by linarith),
        abs_of_nonneg (by linarith)]
      linarith
  · have hscale : other.scale = lead - j := by
      unfold Decimal.lead at hsame
      omega
    refine ⟨other.coefficient, ?_, ?_⟩
    · rw [← hscale]
      exact hother
    · rw [← hscale]
      exact le_rfl
  · have hpower : (10 : ℚ) ^ (lead + 1) ≤ other.exact :=
      (zpow_le_zpow_right₀ (by norm_num) hgreater).trans hleast
    have hpoint := ten_zpow_mul_grid lead j 1
    rw [Nat.cast_one] at hpoint
    refine ⟨10 ^ (j + 1), ?_, ?_⟩
    · rw [hpoint]
      exact hother.of_between (.inr hnext.le) (.inl hpower)
    · rw [hpoint, abs_of_nonneg (by linarith), abs_of_nonneg (by linarith)]
      linarith

/-- The point that is found is not above the next power of ten, which would be nearer. -/
theorem Found.steps_le {j steps : Nat} (h : Found code lead j steps) : steps ≤ 10 ^ (j + 1) := by
  have hpoint := ten_zpow_mul_grid lead j 1
  rw [Nat.cast_one] at hpoint
  by_contra hmore
  have hfarther : (10 : ℚ) ^ (lead + 1) < steps * 10 ^ (lead - j) := by
    rw [← hpoint]
    exact mul_lt_mul_of_pos_right (by exact_mod_cast not_le.mp hmore) (by positivity)
  have hnext := h.lt_next
  have hrounds : RoundsTo ((10 ^ (j + 1) : Nat) * 10 ^ (lead - j)) code := by
    rw [hpoint]
    exact h.roundsTo.of_between (.inr hnext.le) (.inl hfarther.le)
  have hnearer := h.nearest _ hrounds
  rw [hpoint, abs_of_pos (by linarith), abs_of_pos (by linarith)] at hnearer
  linarith

theorem Found.length_digits_le {j steps : Nat} (h : Found code lead j steps) (hj : j ≤ 16) :
    (Decimal.strip 18 ⟨steps, lead - j⟩).digits.length ≤ j + 1 :=
  Decimal.length_digits_strip_le (Nat.succ_pos j) (by omega) h.steps_le (lead - j)

/-- No coarser grid has a point that is rounded to the number, so no numeral has fewer digits. -/
theorem Found.lt_length_digits {j steps : Nat} (h : Found code lead j steps) {other : Decimal}
    (hother : RoundsTo other.exact code) (hpos : 0 < other.coefficient) :
    j < other.digits.length := by
  obtain ⟨k, hdigits⟩ := Nat.exists_eq_add_one.mpr (Decimal.length_digits_pos other)
  obtain ⟨point, hrounds, _⟩ := exists_gridPoint h.lead_le h.lt_next hother hpos hdigits
  by_contra hfewer
  exact h.coarser k (by omega) point hrounds

end Grids

/-- The shortest numeral of a positive finite number has the fewest digits that read back, and
of these it is nearest. -/
theorem isShortest_shortest (tie : Tie) {code : Nat} (hpos : 0 < code) (hlt : code < infinity) :
    IsShortest (shortest tie code) code := by
  have hcompetitor : ∀ other : Decimal, IsNearest other.exact code →
      RoundsTo other.exact code ∧ 0 < other.coefficient := by
    intro other hother
    have hrounds := hother.roundsTo hlt
    exact ⟨hrounds, Decimal.coefficient_pos hrounds hpos hlt⟩
  obtain ⟨lead, j, steps, hfound, hj, hshortest⟩ := shortest_found tie hpos hlt
  have hlength := hfound.length_digits_le hj
  have hexact := Decimal.strip_exact 18 ⟨steps, lead - j⟩
  rw [← hshortest] at hlength hexact
  refine ⟨(shortest_roundsTo tie hpos hlt).isNearest hlt.le, ?_, ?_⟩
  · intro other hother
    obtain ⟨hrounds, hcoefficient⟩ := hcompetitor other hother
    exact hlength.trans (hfound.lt_length_digits hrounds hcoefficient)
  · intro other hother hsame
    obtain ⟨hrounds, hcoefficient⟩ := hcompetitor other hother
    have hcount := hfound.lt_length_digits hrounds hcoefficient
    obtain ⟨point, hpoint, hdistance⟩ := exists_gridPoint hfound.lead_le hfound.lt_next hrounds
      hcoefficient (show other.digits.length = j + 1 by omega)
    rw [hexact]
    exact (hfound.nearest point hpoint).trans hdistance

end Binary
end ComponentMarkup
