import ComponentMarkup.Proofs.Number.Digits
import ComponentMarkup.Proofs.Number.Rounding

/-!
# Values of numerals

A numeral denotes the whole number that its digits are, scaled by a power of ten.  The code of
a numeral is the one nearest to that value, also where the count of the digits alone decides.
-/

namespace ComponentMarkup
namespace Numeral

open Binary

/-- The number that a numeral denotes. -/
def exact (n : Numeral) : ℚ :=
  digitsValue (n.whole ++ n.fraction) * 10 ^ (n.exponent - n.fraction.length)

/-- The power of ten from which on the count of the digits decides is beyond all codes. -/
theorem two_pow_le_ten_pow : (2 : ℚ) ^ 1075 ≤ 10 ^ 400 :=
  calc (2 : ℚ) ^ 1075 ≤ 2 ^ (3 * 359) := pow_le_pow_right₀ (by norm_num) (by norm_num)
    _ = 8 ^ 359 := by rw [pow_mul]; norm_num
    _ ≤ 10 ^ 359 := pow_le_pow_left₀ (by norm_num) (by norm_num) 359
    _ ≤ 10 ^ 400 := pow_le_pow_right₀ (by norm_num) (by norm_num)

/-- A fraction of powers of ten is rounded to the nearest code. -/
theorem isNearest_nearest_ten (coefficient : Nat) (scale : Int) :
    IsNearest (coefficient * 10 ^ scale)
      (nearest (coefficient * Nat.pow 10 scale.toNat) (Nat.pow 10 (-scale).toNat)) := by
  have hden : 0 < Nat.pow 10 (-scale).toNat := Nat.pow_pos (by decide)
  have hvalue : _ = (coefficient : ℚ) * 10 ^ scale :=
    fraction_eq_mul_zpow (by decide : 0 < 10) coefficient scale
  rw [← hvalue]
  exact isNearest_nearest _ hden

theorem isNearest_nearestDecimal {coefficient digits : Nat} (scale : Int)
    (hlower : coefficient = 0 ∨ 10 ^ digits ≤ 10 * coefficient)
    (hupper : coefficient < 10 ^ digits) :
    IsNearest (coefficient * 10 ^ scale) (nearestDecimal coefficient digits scale) := by
  have hpos : (0 : ℚ) < 10 ^ scale := by positivity
  have hscaled : (10 : ℚ) ^ digits * 10 ^ scale = 10 ^ (digits + scale) := by
    rw [zpow_add₀ (by norm_num), zpow_natCast]
  unfold nearestDecimal
  dsimp only
  split
  · rename_i hzero
    rw [hzero, Nat.cast_zero, zero_mul]
    exact isNearest_zero (by rw [mul_zero]; positivity)
  · rename_i hnonzero
    have hlower := hlower.resolve_left hnonzero
    simp only [Int.ofNat_eq_natCast]
    split
    · rename_i hlarge
      have hleast : (10 : ℚ) ^ digits ≤ 10 * coefficient := by exact_mod_cast hlower
      apply isNearest_infinity
      calc magnitude infinity = 2 ^ (1024 : Int) := magnitude_infinity
        _ ≤ 2 ^ (1075 : Int) := zpow_le_zpow_right₀ (by norm_num) (by norm_num)
        _ ≤ 10 ^ (400 : Int) := by exact_mod_cast two_pow_le_ten_pow
        _ ≤ 10 ^ ((digits : Int) + scale - 1) := zpow_le_zpow_right₀ (by norm_num) (by omega)
        _ = 10 ^ digits * 10 ^ scale / 10 := by
            rw [hscaled, zpow_sub_one₀ (by norm_num), div_eq_mul_inv]
        _ ≤ 10 * coefficient * 10 ^ scale / 10 := by gcongr
        _ = coefficient * 10 ^ scale := by ring
    · split
      · rename_i hsmall
        have hmost : (coefficient : ℚ) < 10 ^ digits := by exact_mod_cast hupper
        apply isNearest_zero
        calc 2 * (coefficient * (10 : ℚ) ^ scale) < 2 * (10 ^ digits * 10 ^ scale) := by gcongr
          _ = 2 * 10 ^ (digits + scale) := by rw [hscaled]
          _ ≤ 2 * 10 ^ (-400 : Int) := by
              gcongr
              norm_num
          _ ≤ 2 * 2 ^ (-1075 : Int) := by
              rw [zpow_neg, zpow_neg]
              gcongr
              exact_mod_cast two_pow_le_ten_pow
          _ = 2 ^ (-1074 : Int) := by rw [← zpow_one_add₀ (by norm_num)]; norm_num
      · exact isNearest_nearest_ten coefficient scale

/-- The code of a numeral is the one nearest to what the numeral denotes. -/
theorem isNearest_code {n : Numeral} (h : ∀ c ∈ n.whole ++ n.fraction, c.isDigit = true) :
    IsNearest n.exact n.code := by
  unfold exact code
  dsimp only
  rw [← digitsValue_dropWhile]
  have hdigits : ∀ c ∈ (n.whole ++ n.fraction).dropWhile (· == '0'), c.isDigit = true :=
    fun c hc => h c ((List.dropWhile_sublist _).mem hc)
  have hhead := List.head?_dropWhile_not (· == '0') (n.whole ++ n.fraction)
  generalize (n.whole ++ n.fraction).dropWhile (· == '0') = digits at *
  apply isNearest_nearestDecimal _ _ (digitsValue_lt hdigits)
  cases digits with
  | nil => exact .inl rfl
  | cons c rest =>
      have hzero : c ≠ '0' := by simpa using hhead
      have hleast : 10 ^ rest.length ≤ digitsValue (c :: rest) :=
        pow_le_digitsValue (hdigits c List.mem_cons_self) hzero
      rw [List.length_cons, pow_succ]
      omega

end Numeral
end ComponentMarkup
