import Mathlib
import ComponentMarkup.Number.Binary

/-!
# Rounding to the nearest number

Each code stands for a rational number, in the order of the codes, and infinity for the number
that would come next.  A fraction is rounded to the code whose number is nearest, and of two
equally near ones to the even code.  So what is rounded depends on the value only, not on the
fraction that gives it.
-/

namespace ComponentMarkup
namespace Binary

/-- The number that a code stands for. -/
def magnitude (code : Nat) : ℚ :=
  significand code * 2 ^ exponent code

/-- Whether a code is the one that a number is rounded to: no other one is nearer, and one that
is as near is odd. -/
structure IsNearest (x : ℚ) (code : Nat) : Prop where
  le_infinity : code ≤ infinity
  nearest : ∀ other ≤ infinity, other ≠ code →
    |x - magnitude code| < |x - magnitude other| ∨
      |x - magnitude code| = |x - magnitude other| ∧ code % 2 = 0

/-! ## The order of the codes -/

theorem parts_succ (code : Nat) :
    significand (code + 1) = significand code + 1 ∧ exponent (code + 1) = exponent code ∨
      significand code + 1 = 2 * stride ∧ significand (code + 1) = stride ∧
        exponent (code + 1) = exponent code + 1 := by
  unfold significand exponent stride
  simp only [Int.ofNat_eq_natCast]
  split <;> split <;> omega

theorem magnitude_succ (code : Nat) :
    magnitude (code + 1) = magnitude code + 2 ^ exponent code := by
  unfold magnitude
  rcases parts_succ code with ⟨hunits, hexponent⟩ | ⟨hlast, hunits, hexponent⟩
  · rw [hunits, hexponent]
    push_cast
    ring
  · have hcast : (significand code : ℚ) + 1 = 2 * stride := by
      exact_mod_cast hlast
    rw [hunits, hexponent, zpow_add_one₀ (by norm_num)]
    linear_combination -(2 : ℚ) ^ exponent code * hcast

theorem magnitude_lt_succ (code : Nat) : magnitude code < magnitude (code + 1) := by
  rw [magnitude_succ]
  have hpos : (0 : ℚ) < 2 ^ exponent code := by positivity
  linarith

theorem strictMono_magnitude : StrictMono magnitude :=
  strictMono_nat_of_lt_succ magnitude_lt_succ

theorem magnitude_infinity : magnitude infinity = 2 ^ (1024 : Int) := by
  have hunits : significand infinity = 2 ^ 52 := by decide
  have hunit : exponent infinity = 972 := by decide
  rw [magnitude, hunits, hunit, Nat.cast_pow, Nat.cast_ofNat, ← zpow_natCast,
    ← zpow_add₀ (by norm_num)]
  norm_num

theorem magnitude_zero : magnitude 0 = 0 := by
  norm_num [magnitude, significand, stride]

theorem magnitude_one : magnitude 1 = 2 ^ (-1074 : Int) := by
  have hunits : significand 1 = 1 := by decide
  have hunit : exponent 1 = -1074 := by decide
  rw [magnitude, hunits, hunit, Nat.cast_one, one_mul]

/-! ## Halves between neighbours -/

section Halves

variable {a b x : ℚ}

theorem nearer_upper (hab : a < b) (h : a + b < 2 * x) : |x - b| < |x - a| := by
  rw [← sq_lt_sq]
  nlinarith

theorem nearer_lower (hab : a < b) (h : 2 * x < a + b) : |x - a| < |x - b| := by
  rw [← sq_lt_sq]
  nlinarith

theorem equally_near (h : 2 * x = a + b) : |x - a| = |x - b| := by
  rw [show x - a = -(x - b) by linarith, abs_neg]

end Halves

/-- Whether a number lies between the halves to the neighbours of a code, where a half itself
belongs to the even code. -/
structure RoundsTo (x : ℚ) (code : Nat) : Prop where
  lower : ∀ below, below + 1 = code → magnitude below + magnitude code ≤ 2 * x ∧
    (2 * x = magnitude below + magnitude code → code % 2 = 0)
  upper : 2 * x ≤ magnitude code + magnitude (code + 1) ∧
    (2 * x = magnitude code + magnitude (code + 1) → code % 2 = 0)

theorem RoundsTo.isNearest {x : ℚ} {code : Nat} (h : RoundsTo x code) (hle : code ≤ infinity) :
    IsNearest x code := by
  refine ⟨hle, fun other _ hother => ?_⟩
  rcases Nat.lt_or_gt_of_ne hother with hlt | hgt
  · obtain ⟨below, rfl⟩ := Nat.exists_eq_succ_of_ne_zero (Nat.ne_zero_of_lt hlt)
    obtain ⟨hhalf, heven⟩ := h.lower below rfl
    have hbelow : magnitude other ≤ magnitude below :=
      strictMono_magnitude.monotone (Nat.le_of_lt_succ hlt)
    have hsum : magnitude other + magnitude (below + 1) ≤ 2 * x := by linarith
    rcases hsum.lt_or_eq with hlower | hsame
    · exact .inl (nearer_upper (strictMono_magnitude hlt) hlower)
    · exact .inr ⟨(equally_near hsame.symm).symm, heven (by linarith)⟩
  · obtain ⟨hhalf, heven⟩ := h.upper
    have habove : magnitude (code + 1) ≤ magnitude other :=
      strictMono_magnitude.monotone hgt
    have hsum : 2 * x ≤ magnitude code + magnitude other := by linarith
    rcases hsum.lt_or_eq with hupper | hsame
    · exact .inl (nearer_lower (strictMono_magnitude hgt) hupper)
    · exact .inr ⟨equally_near hsame, heven (by linarith)⟩

/-- A number below a half of the least positive one is rounded to zero. -/
theorem isNearest_zero {x : ℚ} (h : 2 * x < 2 ^ (-1074 : Int)) : IsNearest x 0 := by
  have hrounds : RoundsTo x 0 := by
    refine ⟨fun below hcode => absurd hcode (Nat.succ_ne_zero below), ?_, fun _ => rfl⟩
    rw [magnitude_zero, magnitude_one]
    linarith
  exact hrounds.isNearest (Nat.zero_le infinity)

/-- A number that is not below infinity is rounded to it. -/
theorem isNearest_infinity {x : ℚ} (h : magnitude infinity ≤ x) : IsNearest x infinity := by
  refine ⟨Nat.le_refl infinity, fun other hle hother => .inl ?_⟩
  have hlt : magnitude other < magnitude infinity :=
    strictMono_magnitude (Nat.lt_of_le_of_ne hle hother)
  exact nearer_upper hlt (by linarith)

theorem RoundsTo.isNearest_min {x : ℚ} {code : Nat} (h : RoundsTo x code) :
    IsNearest x (min infinity code) := by
  by_cases hle : code ≤ infinity
  · rw [Nat.min_eq_right hle]
    exact h.isNearest hle
  · have hlt := Nat.lt_of_not_le hle
    obtain ⟨below, rfl⟩ := Nat.exists_eq_succ_of_ne_zero (Nat.ne_zero_of_lt hlt)
    have hhalf := (h.lower below rfl).1
    have hbelow : magnitude infinity ≤ magnitude below :=
      strictMono_magnitude.monotone (Nat.le_of_lt_succ hlt)
    have hstep := magnitude_lt_succ below
    rw [Nat.min_eq_left hlt.le]
    exact isNearest_infinity (by linarith)

/-- What lies between a number that is rounded to a code and the code's own is rounded to it. -/
theorem RoundsTo.of_between {x y : ℚ} {code : Nat} (h : RoundsTo x code)
    (hlower : x ≤ y ∨ magnitude code ≤ y) (hupper : y ≤ x ∨ y ≤ magnitude code) :
    RoundsTo y code := by
  constructor
  · intro below hbelow
    obtain ⟨hhalf, heven⟩ := h.lower below hbelow
    have hstep := magnitude_lt_succ below
    rw [hbelow] at hstep
    rcases hlower with hlower | hlower
    · exact ⟨by linarith, fun htie => heven (by linarith)⟩
    · exact ⟨by linarith, fun htie => by linarith⟩
  · obtain ⟨hhalf, heven⟩ := h.upper
    have hstep := magnitude_lt_succ code
    rcases hupper with hupper | hupper
    · exact ⟨by linarith, fun htie => heven (by linarith)⟩
    · exact ⟨by linarith, fun htie => by linarith⟩

/-- What is nearest to a finite number lies between the halves to its neighbours. -/
theorem IsNearest.roundsTo {x : ℚ} {code : Nat} (h : IsNearest x code) (hlt : code < infinity) :
    RoundsTo x code := by
  have heven : ∀ other ≤ infinity, other ≠ code → 2 * x = magnitude other + magnitude code →
      code % 2 = 0 := by
    intro other hle hne htie
    have hsame := equally_near htie
    rcases h.nearest other hle hne with hless | heven
    · exact absurd hsame.symm hless.ne
    · exact heven.2
  constructor
  · rintro below rfl
    have hle : below ≤ infinity := by omega
    refine ⟨not_lt.mp fun hlow => ?_, heven below hle (by omega)⟩
    have hnearer := nearer_lower (magnitude_lt_succ below) hlow
    rcases h.nearest below hle (by omega) with hless | hsame
    · exact absurd hnearer hless.asymm
    · exact absurd hsame.1 hnearer.ne'
  · rw [add_comm]
    refine ⟨not_lt.mp fun hhigh => ?_, heven (code + 1) hlt (by omega)⟩
    have hnearer := nearer_upper (magnitude_lt_succ code) (by linarith)
    rcases h.nearest (code + 1) hlt (by omega) with hless | hsame
    · exact absurd hnearer hless.asymm
    · exact absurd hsame.1 hnearer.ne'

/-- Only numbers of moderate size are rounded to a positive finite one. -/
theorem RoundsTo.bounds {x : ℚ} {code : Nat} (h : RoundsTo x code) (hpos : 0 < code)
    (hlt : code < infinity) : (2 : ℚ) ^ (-1075 : Int) ≤ x ∧ x ≤ 2 ^ (1024 : Int) := by
  constructor
  · obtain ⟨below, hbelow⟩ := Nat.exists_eq_succ_of_ne_zero hpos.ne'
    have hhalf := (h.lower below hbelow.symm).1
    have hzero : magnitude 0 ≤ magnitude below :=
      strictMono_magnitude.monotone (Nat.zero_le below)
    have hone : magnitude 1 ≤ magnitude code := strictMono_magnitude.monotone hpos
    have hhalved : (2 : ℚ) ^ (-1074 : Int) = 2 * 2 ^ (-1075 : Int) := by
      rw [← zpow_one_add₀ (by norm_num)]
      norm_num
    rw [magnitude_zero] at hzero
    rw [magnitude_one, hhalved] at hone
    linarith
  · have hhalf := h.upper.1
    have hthis := (magnitude_lt_succ code).le
    have hnext : magnitude (code + 1) ≤ magnitude infinity :=
      strictMono_magnitude.monotone hlt
    rw [← magnitude_infinity]
    linarith

theorem IsNearest.le_of_isNearest {x : ℚ} {code other : Nat} (h : IsNearest x code)
    (hother : IsNearest x other) : other ≤ code := by
  by_contra hle
  have hlt := Nat.lt_of_not_le hle
  have hnear := h.nearest other hother.le_infinity hlt.ne'
  have hback := hother.nearest code h.le_infinity hlt.ne
  have hsame : |x - magnitude code| = |x - magnitude other| := by
    rcases hnear with hless | hsame
    · rcases hback with hmore | hsame
      · exact absurd hless hmore.asymm
      · exact hsame.1.symm
    · exact hsame.1
  have heven : code % 2 = 0 ∧ other % 2 = 0 :=
    ⟨(hnear.resolve_left hsame.not_lt).2, (hback.resolve_left hsame.not_gt).2⟩
  -- Two even codes have an odd one between them, and that one is nearer than both.
  have hbetween : code + 1 < other := by omega
  have hinside := strictMono_magnitude hbetween
  have hmiddle : 2 * x = magnitude code + magnitude other := by
    rcases lt_trichotomy (2 * x) (magnitude code + magnitude other) with hlow | heq | hhigh
    · exact absurd hsame (nearer_lower (strictMono_magnitude hlt) hlow).ne
    · exact heq
    · exact absurd hsame (nearer_upper (strictMono_magnitude hlt) hhigh).ne'
  have hnearer : |x - magnitude (code + 1)| < |x - magnitude code| :=
    nearer_upper (magnitude_lt_succ code) (by linarith)
  rcases h.nearest (code + 1) (hbetween.le.trans hother.le_infinity) (by omega) with
    hless | hsame
  · exact absurd hnearer hless.asymm
  · exact absurd hsame.1 hnearer.ne'

/-- No two codes are both nearest. -/
theorem IsNearest.unique {x : ℚ} {code other : Nat} (h : IsNearest x code)
    (hother : IsNearest x other) : code = other :=
  Nat.le_antisymm (hother.le_of_isNearest h) (h.le_of_isNearest hother)

/-! ## Codes from units -/

theorem parts_compose {units : Nat} {unit : Int} (hunit : -1074 ≤ unit)
    (hlt : units < 2 * stride) (hge : unit = -1074 ∨ stride ≤ units) :
    significand (compose units unit) = units ∧ exponent (compose units unit) = unit := by
  unfold significand exponent compose stride at *
  simp only [Int.ofNat_eq_natCast]
  split <;> omega

/-- A count of units that reaches the next power of two makes the unit twice as large. -/
theorem compose_carry {unit : Int} (hunit : -1074 ≤ unit) :
    compose (2 * stride) unit = compose stride (unit + 1) := by
  unfold compose
  rw [show (unit + 1 + 1074).toNat = (unit + 1074).toNat + 1 by omega]
  ring

theorem magnitude_compose {units : Nat} {unit : Int} (hunit : -1074 ≤ unit)
    (hle : units ≤ 2 * stride) (hge : unit = -1074 ∨ stride ≤ units) :
    magnitude (compose units unit) = units * 2 ^ unit := by
  rcases hle.lt_or_eq with hlt | rfl
  · obtain ⟨hunits, hexponent⟩ := parts_compose hunit hlt hge
    rw [magnitude, hunits, hexponent]
  · obtain ⟨hunits, hexponent⟩ :=
      parts_compose (show -1074 ≤ unit + 1 by omega) (by decide) (.inr (Nat.le_refl stride))
    rw [compose_carry hunit, magnitude, hunits, hexponent, zpow_add_one₀ (by norm_num)]
    push_cast
    ring

theorem compose_mod_two (units : Nat) (unit : Int) : compose units unit % 2 = units % 2 := by
  unfold compose stride
  omega

/-! ## Rounding to a whole number -/

theorem roundHalfEven_bounds (num : Nat) {den : Nat} (hden : 0 < den) :
    2 * roundHalfEven num den * den ≤ 2 * num + den ∧
    2 * num ≤ 2 * roundHalfEven num den * den + den ∧
    (2 * roundHalfEven num den * den = 2 * num + den ∨
      2 * num = 2 * roundHalfEven num den * den + den → roundHalfEven num den % 2 = 0) := by
  have hsplit := Nat.div_add_mod num den
  have hrest := Nat.mod_lt num hden
  have hproduct : ∀ n, 2 * n * den = 2 * (den * n) := fun n => by ring
  unfold roundHalfEven
  dsimp only
  generalize num / den = quotient at *
  generalize num % den = rest at *
  split
  · rw [hproduct]
    omega
  · have hnext : den * (quotient + 1) = den * quotient + den := Nat.mul_succ den quotient
    rw [hproduct, hnext]
    omega

/-- The whole number next to a fraction is at most a half away from it, and even where it is a
half away. -/
theorem roundHalfEven_near (num : Nat) {den : Nat} (hden : 0 < den) :
    2 * (roundHalfEven num den : ℚ) ≤ 2 * (num / den) + 1 ∧
    2 * (num / den : ℚ) ≤ 2 * roundHalfEven num den + 1 ∧
    (2 * (roundHalfEven num den : ℚ) = 2 * (num / den) + 1 ∨
      2 * (num / den : ℚ) = 2 * roundHalfEven num den + 1 → roundHalfEven num den % 2 = 0) := by
  have hpos : (0 : ℚ) < den := by exact_mod_cast hden
  have hx : (num : ℚ) = num / den * den := by field_simp
  obtain ⟨hbelow, habove, heven⟩ := roundHalfEven_bounds num hden
  generalize roundHalfEven num den = r at *
  generalize (num / den : ℚ) = x at *
  have hbelow : 2 * (r : ℚ) * den ≤ 2 * num + den := by exact_mod_cast hbelow
  have habove : 2 * (num : ℚ) ≤ 2 * r * den + den := by exact_mod_cast habove
  refine ⟨by nlinarith, by nlinarith, fun htie => heven ?_⟩
  rcases htie with htie | htie
  · refine .inl ?_
    have hnat : 2 * (r : ℚ) * den = 2 * num + den := by
      linear_combination (den : ℚ) * htie - 2 * hx
    exact_mod_cast hnat
  · refine .inr ?_
    have hnat : 2 * (num : ℚ) = 2 * r * den + den := by
      linear_combination (den : ℚ) * htie + 2 * hx
    exact_mod_cast hnat

/-! ## Powers as fractions of natural numbers -/

section Powers

variable {base : Nat} (hbase : 0 < base)

include hbase

theorem pow_toNat (power : Int) :
    (base : ℚ) ^ power.toNat = (base : ℚ) ^ power * (base : ℚ) ^ (-power).toNat := by
  have hne : (base : ℚ) ≠ 0 := by positivity
  rw [← zpow_natCast, ← zpow_natCast, ← zpow_add₀ hne]
  congr 1
  omega

theorem zpow_le_fraction_iff (power : Int) (num : Nat) {den : Nat} (hden : 0 < den) :
    den * Nat.pow base power.toNat ≤ num * Nat.pow base (-power).toNat ↔
      (base : ℚ) ^ power ≤ num / den := by
  have hpos : (0 : ℚ) < (base : ℚ) ^ (-power).toNat := by positivity
  have hdenPos : (0 : ℚ) < den := by exact_mod_cast hden
  rw [le_div_iff₀ hdenPos, ← @Nat.cast_le ℚ, Nat.pow_eq, Nat.pow_eq, Nat.cast_mul,
    Nat.cast_mul, Nat.cast_pow, Nat.cast_pow, pow_toNat hbase, ← mul_assoc,
    mul_le_mul_iff_left₀ hpos, mul_comm]

theorem fraction_div_zpow (power : Int) (num den : Nat) :
    ((num * Nat.pow base (-power).toNat : Nat) : ℚ) / (den * Nat.pow base power.toNat : Nat) =
      (num / den) / (base : ℚ) ^ power := by
  have hpos : (base : ℚ) ^ (-power).toNat ≠ 0 := by positivity
  rw [Nat.pow_eq, Nat.pow_eq, Nat.cast_mul, Nat.cast_mul, Nat.cast_pow, Nat.cast_pow,
    pow_toNat hbase power, ← mul_assoc, mul_div_mul_right _ _ hpos, div_div]

/-- A scaled number as a fraction of natural numbers. -/
theorem fraction_eq_mul_zpow (n : Nat) (power : Int) :
    ((n * Nat.pow base power.toNat : Nat) : ℚ) / (Nat.pow base (-power).toNat : Nat) =
      n * (base : ℚ) ^ power := by
  have hvalue := fraction_div_zpow hbase (-power) n 1
  rwa [neg_neg, Nat.one_mul, Nat.cast_one, div_one, zpow_neg, div_inv_eq_mul] at hvalue

end Powers

/-- The lengths of two numbers tell the power of two of their fraction but for one. -/
theorem log2_bounds {num den : Nat} (hnum : 0 < num) (hden : 0 < den) :
    (2 : ℚ) ^ ((num.log2 : Int) - den.log2 - 1) < num / den ∧
      (num / den : ℚ) < 2 ^ ((num.log2 : Int) - den.log2 + 1) := by
  have hdenPos : (0 : ℚ) < den := by exact_mod_cast hden
  have hbounds : ∀ n : Nat, 0 < n →
      (2 : ℚ) ^ (n.log2 : Int) ≤ n ∧ (n : ℚ) < 2 ^ ((n.log2 : Int) + 1) := by
    intro n hn
    constructor
    · exact_mod_cast Nat.log2_self_le hn.ne'
    · exact_mod_cast Nat.lt_log2_self
  obtain ⟨hnumLower, hnumUpper⟩ := hbounds num hnum
  obtain ⟨hdenLower, hdenUpper⟩ := hbounds den hden
  rw [lt_div_iff₀ hdenPos, div_lt_iff₀ hdenPos]
  constructor
  · calc (2 : ℚ) ^ ((num.log2 : Int) - den.log2 - 1) * den
        < 2 ^ ((num.log2 : Int) - den.log2 - 1) * 2 ^ ((den.log2 : Int) + 1) :=
          mul_lt_mul_of_pos_left hdenUpper (by positivity)
      _ = 2 ^ (num.log2 : Int) := by
          rw [← zpow_add₀ (by norm_num)]
          congr 1
          ring
      _ ≤ num := hnumLower
  · calc (num : ℚ) < 2 ^ ((num.log2 : Int) + 1) := hnumUpper
      _ = 2 ^ ((num.log2 : Int) - den.log2 + 1) * 2 ^ (den.log2 : Int) := by
          rw [← zpow_add₀ (by norm_num)]
          congr 1
          ring
      _ ≤ 2 ^ ((num.log2 : Int) - den.log2 + 1) * den :=
          mul_le_mul_of_nonneg_left hdenLower (by positivity)

/-- The greatest power of two that is at most a fraction. -/
theorem floorPower_bounds {num den : Nat} (hnum : 0 < num) (hden : 0 < den) :
    (2 : ℚ) ^ floorPower num den ≤ num / den ∧ (num / den : ℚ) < 2 ^ (floorPower num den + 1) := by
  have hatMost : ∀ power, powerAtMost power num den = true ↔ (2 : ℚ) ^ power ≤ num / den := by
    intro power
    rw [powerAtMost, decide_eq_true_eq]
    exact zpow_le_fraction_iff (by decide) power num hden
  have hguess := log2_bounds hnum hden
  unfold floorPower
  simp only [Int.ofNat_eq_natCast]
  split
  · rename_i h
    exact ⟨(hatMost _).mp h, hguess.2⟩
  · rename_i h
    rw [hatMost, not_le] at h
    exact ⟨hguess.1.le, by rwa [sub_add_cancel]⟩

/-! ## The nearest code -/

/-- A number that is counted in its own unit is rounded to the nearest count. -/
theorem roundsTo_compose {x : ℚ} {units : Nat} {unit : Int} (hunit : -1074 ≤ unit)
    (hle : units ≤ 2 * stride) (hge : unit = -1074 ∨ stride ≤ units)
    (hlower : unit = -1074 ∨ stride * 2 ^ unit ≤ x)
    (hbelow : 2 * units * (2 : ℚ) ^ unit ≤ 2 * x + 2 ^ unit)
    (habove : 2 * x ≤ 2 * units * (2 : ℚ) ^ unit + 2 ^ unit)
    (heven : 2 * units * (2 : ℚ) ^ unit = 2 * x + 2 ^ unit ∨
      2 * x = 2 * units * (2 : ℚ) ^ unit + 2 ^ unit → units % 2 = 0) :
    RoundsTo x (compose units unit) := by
  have hmagnitude := magnitude_compose hunit hle hge
  have hstep : (0 : ℚ) < 2 ^ unit := by positivity
  constructor
  · intro below hcode
    have hprevious := magnitude_succ below
    rw [hcode, hmagnitude] at hprevious
    rw [hmagnitude, compose_mod_two]
    by_cases hinside : unit = -1074 ∨ stride < units
    · have hexponent : exponent below = unit := by
        have hne : units ≠ 0 := by
          rintro rfl
          rw [hinside.resolve_right (Nat.not_lt_zero stride)] at hcode
          exact absurd hcode (Nat.succ_ne_zero below)
        obtain ⟨fewer, rfl⟩ := Nat.exists_eq_succ_of_ne_zero hne
        have hparts := parts_compose hunit (show fewer < 2 * stride by omega) (by omega)
        rw [← hparts.2]
        congr 1
        unfold compose at hcode ⊢
        omega
      rw [hexponent] at hprevious
      refine ⟨by linarith, fun htie => heven (.inl (by linarith))⟩
    · have hx := hlower.resolve_left (by omega)
      have hunits : units = stride := by omega
      have hsmall : (0 : ℚ) < 2 ^ exponent below := by positivity
      rw [hunits] at hprevious ⊢
      exact ⟨by linarith, fun htie => by linarith⟩
  · rw [magnitude_succ, hmagnitude, compose_mod_two]
    rcases hle.lt_or_eq with hlt | rfl
    · rw [(parts_compose hunit hlt hge).2]
      exact ⟨by linarith, fun htie => heven (.inr (by linarith))⟩
    · have hexponent : exponent (compose (2 * stride) unit) = unit + 1 := by
        rw [compose_carry hunit]
        exact (parts_compose (by omega) (by decide) (.inr (Nat.le_refl stride))).2
      rw [hexponent, zpow_add_one₀ (by norm_num)]
      exact ⟨by linarith, fun htie => by linarith⟩

theorem stride_mul_zpow (power : Int) : (stride : ℚ) * 2 ^ power = 2 ^ (power + 52) := by
  rw [zpow_add₀ (by norm_num), mul_comm]
  norm_num [stride]

/-- In the unit that is chosen for it, a number is counted with as many bits as fit, or in the
least unit with fewer. -/
theorem counted_bounds {y : ℚ} {power unit : Int} (hunit : max (-1074) (power - 52) = unit)
    (hpower : (2 : ℚ) ^ power ≤ y * 2 ^ unit) (hnext : y * 2 ^ unit < 2 ^ (power + 1)) :
    y < 2 * stride ∧ (unit = -1074 ∨ stride ≤ y) := by
  have hpos : (0 : ℚ) < 2 ^ unit := by positivity
  constructor
  · have hle : (2 : ℚ) ^ (power + 1) ≤ 2 * stride * 2 ^ unit := by
      rw [mul_assoc, stride_mul_zpow, ← zpow_one_add₀ (by norm_num)]
      exact zpow_le_zpow_right₀ (by norm_num) (by omega)
    exact lt_of_mul_lt_mul_right (hnext.trans_le hle) hpos.le
  · by_cases hfirst : unit = -1074
    · exact .inl hfirst
    · have hle : (stride : ℚ) * 2 ^ unit ≤ y * 2 ^ unit := by
        rw [stride_mul_zpow, show unit + 52 = power by omega]
        exact hpower
      exact .inr (le_of_mul_le_mul_right hle hpos)

/-- The nearest count of units gives the code that a number is rounded to. -/
theorem roundsTo_of_counted {y : ℚ} {unit : Int} {units : Nat} (hlow : -1074 ≤ unit)
    (hfew : y < 2 * stride) (hmany : unit = -1074 ∨ stride ≤ y)
    (hbelow : 2 * (units : ℚ) ≤ 2 * y + 1) (habove : 2 * y ≤ 2 * units + 1)
    (heven : 2 * (units : ℚ) = 2 * y + 1 ∨ 2 * y = 2 * units + 1 → units % 2 = 0) :
    RoundsTo (y * 2 ^ unit) (compose units unit) := by
  have hpos : (0 : ℚ) < 2 ^ unit := by positivity
  have hle : units ≤ 2 * stride := by
    have hcast : (2 * units : ℚ) < 4 * stride + 1 := by linarith
    have hnat : 2 * units < 4 * stride + 1 := by exact_mod_cast hcast
    omega
  have hge : unit = -1074 ∨ stride ≤ units := by
    refine hmany.imp_right fun hy => ?_
    have hcast : (2 * stride : ℚ) ≤ 2 * units + 1 := by linarith
    have hnat : 2 * stride ≤ 2 * units + 1 := by exact_mod_cast hcast
    omega
  have hlower : unit = -1074 ∨ stride * 2 ^ unit ≤ y * 2 ^ unit :=
    hmany.imp_right fun hy => mul_le_mul_of_nonneg_right hy hpos.le
  apply roundsTo_compose hlow hle hge hlower
  · nlinarith
  · nlinarith
  · intro htie
    apply heven
    rcases htie with htie | htie
    · exact .inl (mul_right_cancel₀ hpos.ne' (by linarith))
    · exact .inr (mul_right_cancel₀ hpos.ne' (by linarith))

/-- A fraction is rounded to the nearest code. -/
theorem isNearest_nearest (num : Nat) {den : Nat} (hden : 0 < den) :
    IsNearest (num / den) (nearest num den) := by
  rcases Nat.eq_zero_or_pos num with rfl | hnum
  · rw [nearest, if_pos rfl, Nat.cast_zero, zero_div]
    exact isNearest_zero (by rw [mul_zero]; positivity)
  · rw [nearest, if_neg hnum.ne']
    dsimp only
    apply RoundsTo.isNearest_min
    obtain ⟨hpower, hnext⟩ := floorPower_bounds hnum hden
    generalize floorPower num den = power at *
    generalize hunit : max (-1074) (power - 52) = unit
    have hpos : (0 : ℚ) < 2 ^ unit := by positivity
    have hscaled : 0 < den * Nat.pow 2 unit.toNat := Nat.mul_pos hden (Nat.pow_pos (by decide))
    have hnear := roundHalfEven_near (num * Nat.pow 2 (-unit).toNat) hscaled
    rw [fraction_div_zpow (by decide)] at hnear
    generalize roundHalfEven (num * Nat.pow 2 (-unit).toNat) (den * Nat.pow 2 unit.toNat) = units
      at *
    generalize (num / den : ℚ) = x at *
    obtain ⟨y, rfl⟩ : ∃ y, x = y * 2 ^ unit := ⟨x / 2 ^ unit, by field_simp⟩
    rw [Nat.cast_ofNat, mul_div_cancel_right₀ y hpos.ne'] at hnear
    obtain ⟨hbelow, habove, heven⟩ := hnear
    obtain ⟨hfew, hmany⟩ := counted_bounds hunit hpower hnext
    exact roundsTo_of_counted (by omega) hfew hmany hbelow habove heven

end Binary
end ComponentMarkup
