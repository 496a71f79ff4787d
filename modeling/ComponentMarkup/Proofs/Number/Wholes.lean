import ComponentMarkup.Proofs.Number.Codes
import ComponentMarkup.Proofs.Number.Rounding

/-!
# Whole numbers as binary numbers

Rounding keeps the order of numbers, and up to `2 ^ 53` it keeps every whole number.  So a
number is rounded beyond a small whole number only if it lies beyond it already.
-/

namespace ComponentMarkup
namespace Binary

/-! ## The order of rounded numbers -/

theorem IsNearest.mono {x y : ℚ} {code other : Nat} (hxy : x ≤ y) (h : IsNearest x code)
    (hother : IsNearest y other) : code ≤ other := by
  by_contra hle
  have hlt := strictMono_magnitude (Nat.lt_of_not_le hle)
  have hx : magnitude other + magnitude code ≤ 2 * x := by
    by_contra hlow
    have hnearer := nearer_lower hlt (lt_of_not_ge hlow)
    rcases h.nearest other hother.le_infinity (by omega) with hless | ⟨hsame, _⟩
    · exact hless.asymm hnearer
    · exact hnearer.ne' hsame
  have hy : 2 * y ≤ magnitude other + magnitude code := by
    by_contra hhigh
    have hnearer := nearer_upper hlt (lt_of_not_ge hhigh)
    rcases hother.nearest code h.le_infinity (by omega) with hless | ⟨hsame, _⟩
    · exact hless.asymm hnearer
    · exact hnearer.ne' hsame
  obtain rfl : x = y := by linarith
  exact hle (h.unique hother).le

theorem isNearest_nearest_one (n : Nat) : IsNearest n (nearest n 1) := by
  have hnear := isNearest_nearest n Nat.one_pos
  rwa [Nat.cast_one, div_one] at hnear

theorem nearest_mono {n m : Nat} (h : n ≤ m) : nearest n 1 ≤ nearest m 1 :=
  (isNearest_nearest_one n).mono (by exact_mod_cast h) (isNearest_nearest_one m)

/-! ## Whole numbers that are kept -/

/-- A number that a code stands for is rounded to that code. -/
theorem isNearest_magnitude {code : Nat} (h : code ≤ infinity) :
    IsNearest (magnitude code) code := by
  refine ⟨h, fun other _ hother => .inl ?_⟩
  rw [sub_self, abs_zero, abs_pos, sub_ne_zero]
  exact fun hsame => hother (strictMono_magnitude.injective hsame).symm

/-- A positive number up to `2 ^ 53` lies between two neighbouring powers of two. -/
theorem exists_pow_bounds {n : Nat} (hpos : 0 < n) (h : n ≤ 2 ^ 53) :
    ∃ k ≤ 52, 2 ^ k ≤ n ∧ n ≤ 2 ^ (k + 1) := by
  rcases h.lt_or_eq with hlt | rfl
  · have hk : n.log2 < 53 := (Nat.log2_lt hpos.ne').mpr hlt
    exact ⟨n.log2, Nat.le_of_lt_succ hk, Nat.log2_self_le hpos.ne', Nat.lt_log2_self.le⟩
  · exact ⟨52, Nat.le_refl 52, by norm_num, Nat.le_refl _⟩

/-- Up to `2 ^ 53` every natural number is the number of a code. -/
theorem exists_magnitude_eq {n : Nat} (h : n ≤ 2 ^ 53) :
    ∃ code < infinity, magnitude code = n := by
  have hfinite : ∀ code, magnitude code = n → code < infinity := by
    intro code hcode
    rw [← strictMono_magnitude.lt_iff_lt, hcode, magnitude_infinity]
    calc (n : ℚ) ≤ 2 ^ (53 : Int) := by exact_mod_cast h
      _ < 2 ^ (1024 : Int) := zpow_lt_zpow_right₀ (by norm_num) (by norm_num)
  rcases Nat.eq_zero_or_pos n with rfl | hpos
  · exact ⟨0, hfinite 0 (by rw [magnitude_zero, Nat.cast_zero]),
      by rw [magnitude_zero, Nat.cast_zero]⟩
  · -- The number is counted in the unit in which it has 53 bits.
    obtain ⟨k, hk, hlow, hhigh⟩ := exists_pow_bounds hpos h
    have hstride : stride = 2 ^ k * 2 ^ (52 - k) := by
      rw [← Nat.pow_add, Nat.add_sub_cancel' hk]
      rfl
    have hleast : stride ≤ n * 2 ^ (52 - k) := by
      rw [hstride]
      exact Nat.mul_le_mul_right _ hlow
    have hmost : n * 2 ^ (52 - k) ≤ 2 * stride := by
      rw [hstride, ← Nat.mul_assoc, ← Nat.pow_succ']
      exact Nat.mul_le_mul_right _ hhigh
    have hunit : -1074 ≤ (k : Int) - 52 := by omega
    have hcode := magnitude_compose hunit hmost (.inr hleast)
    have hvalue : ((n * 2 ^ (52 - k) : Nat) : ℚ) * 2 ^ ((k : Int) - 52) = n := by
      rw [Nat.cast_mul, Nat.cast_pow, Nat.cast_ofNat, mul_assoc, ← zpow_natCast,
        ← zpow_add₀ (by norm_num), show ((52 - k : Nat) : Int) + (k - 52) = 0 by omega, zpow_zero,
        mul_one]
    exact ⟨_, hfinite _ (hcode.trans hvalue), hcode.trans hvalue⟩

theorem magnitude_nearest {n : Nat} (h : n ≤ 2 ^ 53) : magnitude (nearest n 1) = n := by
  obtain ⟨code, hlt, hcode⟩ := exists_magnitude_eq h
  have hnear := isNearest_magnitude hlt.le
  rw [hcode] at hnear
  rw [(isNearest_nearest_one n).unique hnear, hcode]

theorem wholePart_eq_floor (code : Nat) : wholePart code = ⌊magnitude code⌋₊ := by
  have hvalue := fraction_eq_mul_zpow (by decide : 0 < 2) (significand code) (exponent code)
  rw [wholePart, ← Nat.floor_div_eq_div (K := ℚ), hvalue]
  rfl

theorem wholePart_nearest {n : Nat} (h : n ≤ 2 ^ 53) : wholePart (nearest n 1) = n := by
  rw [wholePart_eq_floor, magnitude_nearest h, Nat.floor_natCast]

theorem wholePart_mono {code other : Nat} (h : code ≤ other) :
    wholePart code ≤ wholePart other := by
  rw [wholePart_eq_floor, wholePart_eq_floor]
  exact Nat.floor_mono (strictMono_magnitude.monotone h)

/-! ## Whole numbers between the infinities -/

namespace Whole

/-- A whole number among the integers with a least and a greatest one. -/
def toExtended : Whole → WithBot (WithTop Int)
  | .negativeInfinity => ⊥
  | .finite i => ((i : WithTop Int) : WithBot (WithTop Int))
  | .positiveInfinity => ((⊤ : WithTop Int) : WithBot (WithTop Int))

theorem toExtended_injective : Function.Injective toExtended := by
  intro a b h
  cases a <;> cases b <;> simp_all [toExtended]

instance : LinearOrder Whole :=
  LinearOrder.lift' toExtended toExtended_injective

variable {i j : Int}

@[simp] theorem finite_le_finite : finite i ≤ finite j ↔ i ≤ j := by
  change toExtended _ ≤ toExtended _ ↔ _
  simp [toExtended]

@[simp] theorem finite_lt_finite : finite i < finite j ↔ i < j := by
  change toExtended _ < toExtended _ ↔ _
  simp [toExtended]

@[simp] theorem negativeInfinity_le (a : Whole) : negativeInfinity ≤ a :=
  bot_le (a := a.toExtended)

@[simp] theorem le_positiveInfinity (a : Whole) : a ≤ positiveInfinity := by
  change toExtended _ ≤ toExtended _
  cases a <;> simp [toExtended]

@[simp] theorem negativeInfinity_lt_finite : negativeInfinity < finite i :=
  WithBot.bot_lt_coe _

@[simp] theorem finite_lt_positiveInfinity : finite i < positiveInfinity :=
  WithBot.coe_lt_coe.mpr (WithTop.coe_lt_top i)

/-! ## Rounded arithmetic -/

/-- The binary number next to a whole number, which is a whole number again. -/
def rounded (i : Int) : Whole :=
  truncate (ofInt i)

/-- The sum of two binary numbers of which not both are infinite. -/
def sum : Whole → Whole → Whole
  | .finite a, .finite b => rounded (a + b)
  | .finite _, b => b
  | a, _ => a

/-- A binary number times a positive count. -/
def times (a : Whole) (count : Nat) : Whole :=
  match a with
  | .finite a => rounded (a * count)
  | a => a

/-- The place that a number names.  A number below zero names the first place, and a number that
does not fit in 64 bits the last one. -/
def toPlace : Whole → Nat
  | .negativeInfinity => 0
  | .finite i => min i.toNat (wordCount - 1)
  | .positiveInfinity => wordCount - 1

theorem truncate_ofCode (negative : Bool) {code : Nat} (h : code < infinity) :
    truncate (ofCode negative code) =
      finite (if negative then -wholePart code else wholePart code) := by
  rw [truncate, code_ofCode negative h.le, isNegative_ofCode negative h.le, if_neg h.not_gt,
    if_neg h.ne]
  cases negative <;> rfl

theorem truncate_ofCode_infinity (negative : Bool) :
    truncate (ofCode negative infinity) =
      if negative then negativeInfinity else positiveInfinity := by
  rw [truncate, code_ofCode negative (Nat.le_refl _), isNegative_ofCode negative (Nat.le_refl _),
    if_neg (Nat.lt_irrefl _), if_pos rfl]

theorem truncate_ofCode_mono {code other : Nat} (h : code ≤ other) (hother : other ≤ infinity) :
    truncate (ofCode false code) ≤ truncate (ofCode false other) ∧
      truncate (ofCode true other) ≤ truncate (ofCode true code) := by
  rcases hother.lt_or_eq with hlt | rfl
  · have hparts := wholePart_mono h
    simp only [truncate_ofCode _ hlt, truncate_ofCode _ (h.trans_lt hlt), finite_le_finite,
      Bool.false_eq_true, if_false, if_true]
    omega
  · rw [truncate_ofCode_infinity, truncate_ofCode_infinity]
    exact ⟨le_positiveInfinity _, negativeInfinity_le _⟩

theorem rounded_mono (h : i ≤ j) : rounded i ≤ rounded j := by
  have hcode : ∀ n, nearest n 1 ≤ infinity := fun n => (isNearest_nearest_one n).le_infinity
  unfold rounded ofInt
  rcases lt_or_ge i 0 with hi | hi
  · rcases lt_or_ge j 0 with hj | hj
    · rw [decide_eq_true hi, decide_eq_true hj]
      exact (truncate_ofCode_mono (nearest_mono (by omega)) (hcode _)).2
    · rw [decide_eq_true hi, decide_eq_false hj.not_gt]
      calc truncate (ofCode true (nearest i.natAbs 1)) ≤ truncate (ofCode true 0) :=
            (truncate_ofCode_mono (Nat.zero_le _) (hcode _)).2
        _ ≤ truncate (ofCode false 0) := by
            have hzero : wholePart 0 = 0 := by
              rw [wholePart_eq_floor, magnitude_zero, Nat.floor_zero]
            rw [truncate_ofCode _ (by decide), truncate_ofCode _ (by decide), hzero]
            exact le_refl (finite 0)
        _ ≤ truncate (ofCode false (nearest j.natAbs 1)) :=
            (truncate_ofCode_mono (Nat.zero_le _) (hcode _)).1
  · rw [decide_eq_false hi.not_gt, decide_eq_false (hi.trans h).not_gt]
    exact (truncate_ofCode_mono (nearest_mono (by omega)) (hcode _)).1

/-- Small whole numbers are not changed by rounding. -/
theorem rounded_of_small (h : i.natAbs ≤ 2 ^ 53) : rounded i = finite i := by
  have hlt : nearest i.natAbs 1 < infinity := by
    obtain ⟨code, hlt, hcode⟩ := exists_magnitude_eq h
    rwa [strictMono_magnitude.injective ((magnitude_nearest h).trans hcode.symm)]
  rw [rounded, ofInt, truncate_ofCode _ hlt, wholePart_nearest h]
  congr 1
  simp only [decide_eq_true_eq]
  split <;> omega

theorem ofInt_natCast (n : Nat) : ofInt n = ofNat n := by
  rw [ofInt, decide_eq_false (by omega), Int.natAbs_natCast, ofNat]

/-- Rounding does not move a number beyond a small whole number. -/
theorem finite_lt_rounded_iff {bound : Nat} (h : bound < 2 ^ 53) :
    finite bound < rounded i ↔ (bound : Int) < i := by
  constructor
  · intro hlt
    by_contra hle
    have hkept : rounded i ≤ finite bound := by
      rw [← rounded_of_small (i := bound) (by omega)]
      exact rounded_mono (not_lt.mp hle)
    exact hkept.not_gt hlt
  · intro hlt
    calc finite bound < finite (bound + 1) := finite_lt_finite.mpr (by omega)
      _ = rounded (bound + 1) := (rounded_of_small (by omega)).symm
      _ ≤ rounded i := rounded_mono (by omega)

/-! ## Sums and products up to a bound -/

/-- Whether a number is a count, or both lie beyond a bound. -/
def AgreesUpTo (bound : Nat) (a : Whole) (count : Nat) : Prop :=
  a = finite count ∨ finite bound < a ∧ bound < count

namespace AgreesUpTo

variable {bound count more : Nat} {a b : Whole}

theorem lt_iff (h : AgreesUpTo bound a count) : finite bound < a ↔ bound < count := by
  rcases h with rfl | ⟨ha, hcount⟩
  · rw [finite_lt_finite, Int.ofNat_lt]
  · exact ⟨fun _ => hcount, fun _ => ha⟩

variable (hbound : bound < 2 ^ 53)

include hbound

theorem rounded (count : Nat) : AgreesUpTo bound (rounded count) count := by
  rcases Nat.lt_or_ge bound count with hlt | hle
  · exact .inr ⟨(finite_lt_rounded_iff hbound).mpr (by omega), hlt⟩
  · exact .inl (rounded_of_small (by omega))

theorem sum (ha : AgreesUpTo bound a count) (hb : AgreesUpTo bound b more) :
    AgreesUpTo bound (sum a b) (count + more) := by
  rcases ha with rfl | ⟨ha, hcount⟩
  · rcases hb with rfl | ⟨hb, hmore⟩
    · exact rounded hbound (count + more)
    · cases b with
      | negativeInfinity => exact absurd hb negativeInfinity_lt_finite.not_gt
      | positiveInfinity => exact .inr ⟨hb, by omega⟩
      | finite b =>
          rw [finite_lt_finite] at hb
          exact .inr ⟨(finite_lt_rounded_iff hbound).mpr (by omega), by omega⟩
  · refine .inr ⟨?_, by omega⟩
    cases a with
    | negativeInfinity => exact ha
    | positiveInfinity => exact ha
    | finite a =>
        rw [finite_lt_finite] at ha
        rcases hb with rfl | ⟨hb, hmore⟩
        · exact (finite_lt_rounded_iff hbound).mpr (by omega)
        · cases b with
          | negativeInfinity => exact absurd hb negativeInfinity_lt_finite.not_gt
          | positiveInfinity => exact hb
          | finite b =>
              rw [finite_lt_finite] at hb
              exact (finite_lt_rounded_iff hbound).mpr (by omega)

theorem times (ha : AgreesUpTo bound a count) {times : Nat} (htimes : 0 < times) :
    AgreesUpTo bound (a.times times) (count * times) := by
  rcases ha with rfl | ⟨ha, hcount⟩
  · have hrounded := rounded hbound (count * times)
    rwa [Nat.cast_mul] at hrounded
  · refine .inr ⟨?_, hcount.trans_le (Nat.le_mul_of_pos_right count htimes)⟩
    cases a with
    | negativeInfinity => exact ha
    | positiveInfinity => exact ha
    | finite a =>
        rw [finite_lt_finite] at ha
        have hle : a ≤ a * times := le_mul_of_one_le_right (by omega) (by omega)
        exact (finite_lt_rounded_iff hbound).mpr (by omega)

end AgreesUpTo

end Whole

end Binary
end ComponentMarkup
