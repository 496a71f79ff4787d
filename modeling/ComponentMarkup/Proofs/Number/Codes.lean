import Mathlib
import ComponentMarkup.Number.Binary

/-!
# Signs and codes of floating point numbers

A number up to infinity is given by its sign and its code, and its negative has the other
sign.  What a sum or a product of such numbers misses is a number only where one of them
does.
-/

namespace ComponentMarkup
namespace Binary

open Float.Model

/-! ## The parts of 64 bits -/

theorem toNat_unpackExponent (b : BitVec 64) :
    (@UnpackedFloat.unpackExponent .binary64 b).toNat = b.toNat / 2 ^ 52 % 2 ^ 11 := by
  rw [UnpackedFloat.unpackExponent_def, BitVec.extractLsb'_toNat, Nat.shiftRight_eq_div_pow]

theorem toNat_unpackMantissa (b : BitVec 64) :
    (@UnpackedFloat.unpackMantissa .binary64 b).toNat = b.toNat % 2 ^ 52 := by
  rw [UnpackedFloat.unpackMantissa_def, BitVec.extractLsb'_toNat, Nat.shiftRight_zero]

theorem toNat_unpackSign (b : BitVec 64) :
    (@UnpackedFloat.unpackSign .binary64 b).toNat = b.toNat / 2 ^ 63 % 2 := by
  rw [UnpackedFloat.unpackSign_def, BitVec.extractLsb'_toNat, Nat.shiftRight_eq_div_pow]
  rfl

theorem toBits_ofBits {b : UInt64} (h : b.toNat % 2 ^ 63 ≤ infinity) :
    (Float.ofBits b).toBits = b := by
  have hbits : @UnpackedFloat.isNaNBits .binary64 b.toBitVec = false := by
    rw [UnpackedFloat.isNaNBits, decide_eq_false_iff_not, not_and_not_right]
    intro hexponent
    have hlast := congrArg BitVec.toNat hexponent
    have hnat : b.toBitVec.toNat = b.toNat := rfl
    have hones : (-1#11).toNat = 2047 := by decide
    rw [toNat_unpackExponent, hones, hnat] at hlast
    apply BitVec.eq_of_toNat_eq
    rw [toNat_unpackMantissa, hnat]
    unfold infinity at h
    change b.toNat % 2 ^ 52 = 0
    omega
  have hpack := @UnpackedFloat.pack_unpack .binary64 b.toBitVec
  rw [hbits] at hpack
  exact UInt64.toBitVec_inj.mp hpack

theorem toNat_toBits_ofCode (negative : Bool) {c : Nat} (h : c ≤ infinity) :
    (ofCode negative c).toBits.toNat = if negative then c + signBit else c := by
  unfold infinity at h
  have hfits : (if negative then c + signBit else c) < 2 ^ 64 := by
    unfold signBit
    split <;> omega
  have hnat : (UInt64.ofNat (if negative then c + signBit else c)).toNat =
      if negative then c + signBit else c := UInt64.toNat_ofNat_of_lt' hfits
  rw [ofCode, toBits_ofBits, hnat]
  rw [hnat]
  unfold signBit infinity
  split <;> omega

theorem code_ofCode (negative : Bool) {c : Nat} (h : c ≤ infinity) :
    code (ofCode negative c) = c := by
  rw [code, toNat_toBits_ofCode negative h]
  unfold infinity at h
  unfold signBit
  split <;> omega

theorem isNegative_ofCode (negative : Bool) {c : Nat} (h : c ≤ infinity) :
    isNegative (ofCode negative c) = negative := by
  rw [isNegative, toNat_toBits_ofCode negative h]
  unfold infinity at h
  unfold signBit
  cases negative with
  | false => simpa using h.trans_lt (by decide)
  | true => simp

/-- A number is found again from its sign and its code. -/
theorem ofCode_code (x : Float) : ofCode (isNegative x) (code x) = x := by
  have hbits : (if isNegative x then code x + signBit else code x) = x.toBits.toNat := by
    have hlt : x.toBits.toNat < 2 ^ 64 := x.toBits.toNat_lt
    unfold isNegative code signBit
    simp only [decide_eq_true_eq]
    split <;> omega
  rw [ofCode, hbits, UInt64.ofNat_toNat, Float.ofBits_toBits]

theorem unpack_flipped {b flipped : BitVec 64}
    (hexponent : flipped.toNat / 2 ^ 52 % 2 ^ 11 = b.toNat / 2 ^ 52 % 2 ^ 11)
    (hmantissa : flipped.toNat % 2 ^ 52 = b.toNat % 2 ^ 52)
    (hsign : b.toNat / 2 ^ 63 % 2 = 0 ∧ flipped.toNat / 2 ^ 63 % 2 = 1) :
    UnpackedFloat.unpack .binary64 flipped = (UnpackedFloat.unpack .binary64 b).neg := by
  have hsameExponent : @UnpackedFloat.unpackExponent .binary64 flipped =
      @UnpackedFloat.unpackExponent .binary64 b := by
    apply BitVec.eq_of_toNat_eq
    rw [toNat_unpackExponent, toNat_unpackExponent, hexponent]
  have hsameMantissa : @UnpackedFloat.unpackMantissa .binary64 flipped =
      @UnpackedFloat.unpackMantissa .binary64 b := by
    apply BitVec.eq_of_toNat_eq
    rw [toNat_unpackMantissa, toNat_unpackMantissa, hmantissa]
  have hplus : @UnpackedFloat.unpackSign .binary64 b = 0#1 := by
    apply BitVec.eq_of_toNat_eq
    rw [toNat_unpackSign, hsign.1]
    rfl
  have hminus : @UnpackedFloat.unpackSign .binary64 flipped = 1#1 := by
    apply BitVec.eq_of_toNat_eq
    rw [toNat_unpackSign, hsign.2]
    rfl
  unfold UnpackedFloat.unpack
  simp only [hsameExponent, hsameMantissa, hplus, hminus]
  split
  · split <;> rfl
  · split
    · split <;> rfl
    · rfl

/-- The negative of a number has the other sign and the same code. -/
theorem neg_ofCode {c : Nat} (h : c ≤ infinity) : -(ofCode false c) = ofCode true c := by
  have hplus := toNat_toBits_ofCode false h
  have hminus := toNat_toBits_ofCode true h
  unfold infinity at h
  unfold signBit at hminus
  simp only [Bool.false_eq_true, if_false, if_true] at hplus hminus
  have hunpack : (ofCode true c).toModel.unpack = (ofCode false c).toModel.unpack.neg := by
    have hbits : ∀ x : Float, x.toModel.toBits.toBitVec.toNat = x.toBits.toNat := fun _ => rfl
    apply unpack_flipped
    · rw [hbits, hbits, hplus, hminus]
      omega
    · rw [hbits, hbits, hplus, hminus]
      omega
    · rw [hbits, hbits, hplus, hminus]
      omega
  have hpack : (Float.Model.pack (ofCode true c).toModel.unpack).toBits.toBitVec =
      (ofCode true c).toModel.toBits.toBitVec :=
    UnpackedFloat.pack_unpack_of_valid (ofCode true c).toModel.valid
  rw [hunpack] at hpack
  exact Float.toBits_inj.mp (UInt64.toBitVec_inj.mp hpack)

/-! ## What is not a number -/

theorem isNaN_notANumber : notANumber.isNaN = true := by
  decide

theorem isNaN_ofCode (negative : Bool) {c : Nat} (h : c ≤ infinity) :
    (ofCode negative c).isNaN = false := by
  rw [Float.isNaN_eq_decide_eq_nan, decide_eq_false_iff_not]
  intro hnan
  have hcode := code_ofCode negative h
  have hlarge : infinity < code Float.nan := by
    decide
  rw [hnan] at hcode
  omega

theorem pack_ne_packedNaN {f : UnpackedFloat} (h : f ≠ .notANumber) :
    f.pack .binary64 ≠ UnpackedFloat.packedNaN .binary64 := by
  intro hpack
  have hexponent := congrArg (@UnpackedFloat.unpackExponent .binary64) hpack
  have hmantissa := congrArg (@UnpackedFloat.unpackMantissa .binary64) hpack
  rw [UnpackedFloat.packedNaN, UnpackedFloat.unpackExponent_packComponents] at hexponent
  rw [UnpackedFloat.packedNaN, UnpackedFloat.unpackMantissa_packComponents] at hmantissa
  cases f with
  | notANumber => exact h rfl
  | infinity s =>
      rw [UnpackedFloat.pack, UnpackedFloat.packedInfinity,
        UnpackedFloat.unpackMantissa_packComponents] at hmantissa
      exact absurd hmantissa (by decide)
  | zero s =>
      rw [UnpackedFloat.pack, UnpackedFloat.packedZero,
        UnpackedFloat.unpackExponent_packComponents] at hexponent
      exact absurd hexponent (by decide)
  | finite s m e hm =>
      rw [UnpackedFloat.pack] at hexponent hmantissa
      split at hexponent
      · rename_i hlarge
        rw [if_pos hlarge, UnpackedFloat.packedInfinity,
          UnpackedFloat.unpackMantissa_packComponents] at hmantissa
        exact absurd hmantissa (by decide)
      · rename_i hsmall
        split at hexponent
        · rw [UnpackedFloat.unpackExponent_packComponents] at hexponent
          have hlast := congrArg BitVec.toNat hexponent
          have hones : (-1#11).toNat = 2047 := by decide
          rw [BitVec.toNat_ofNat, hones] at hlast
          change ¬ 2 ^ 11 ≤ _ + 1 at hsmall
          change _ % 2 ^ 11 = _ at hlast
          omega
        · rw [UnpackedFloat.unpackExponent_packComponents] at hexponent
          exact absurd hexponent (by decide)

theorem isNaN_pack {f : UnpackedFloat} (h : f ≠ .notANumber) :
    (Float.ofModel (Float.Model.pack f)).isNaN = false := by
  rw [Bool.eq_false_iff]
  intro hnan
  exact pack_ne_packedNaN h
    ((UnpackedFloat.isNaN_unpack_iff_of_valid UnpackedFloat.valid_pack).mp hnan)

theorem unpack_ne_of_isNaN {x : Float} (h : x.isNaN = false) :
    x.toModel.unpack ≠ .notANumber := by
  intro hnan
  have hx : x.toModel.unpack.isNaN = false := h
  rw [hnan] at hx
  cases hx

/-- Rounding gives a number. -/
theorem roundWithAccuracy_ne (s : UnpackedFloat.Sign) (m : Nat) (e : Int)
    (a : UnpackedFloat.Accuracy) :
    UnpackedFloat.roundWithAccuracy .binary64 s m e a ≠ .notANumber := by
  unfold UnpackedFloat.roundWithAccuracy
  dsimp only
  split <;> exact UnpackedFloat.noConfusion

theorem normalize_ne (m e : Int) (s : UnpackedFloat.Sign) :
    UnpackedFloat.normalize .binary64 m e s ≠ .notANumber := by
  unfold UnpackedFloat.normalize UnpackedFloat.round
  split
  · exact roundWithAccuracy_ne _ _ _ _
  · exact UnpackedFloat.noConfusion
  · exact roundWithAccuracy_ne _ _ _ _

/-- Whether a number is neither missing nor an infinity. -/
def IsFinite (x : Float) : Prop :=
  x.toModel.unpack ≠ .notANumber ∧ ∀ s, x.toModel.unpack ≠ .infinity s

theorem isFinite_ofCode (negative : Bool) {c : Nat} (h : c < infinity) :
    IsFinite (ofCode negative c) := by
  have hbits := toNat_toBits_ofCode negative h.le
  have hexponent : @UnpackedFloat.unpackExponent .binary64
      (ofCode negative c).toModel.toBits.toBitVec ≠ -1#11 := by
    intro hlast
    have hnat : (ofCode negative c).toModel.toBits.toBitVec.toNat =
        (ofCode negative c).toBits.toNat := rfl
    have hones : (-1#11).toNat = 2047 := by decide
    have hlast := congrArg BitVec.toNat hlast
    rw [toNat_unpackExponent, hnat, hbits, hones] at hlast
    unfold infinity at h
    unfold signBit at hlast
    split at hlast <;> omega
  unfold IsFinite Float.Model.unpack UnpackedFloat.unpack
  dsimp only
  rw [if_neg hexponent]
  split
  · split <;> exact ⟨UnpackedFloat.noConfusion, fun _ => UnpackedFloat.noConfusion⟩
  · exact ⟨UnpackedFloat.noConfusion, fun _ => UnpackedFloat.noConfusion⟩

/-- A product is a number where no infinity meets a zero. -/
theorem isNaN_mul {x y : Float} (hx : x.isNaN = false)
    (hy : ∃ s m e hm, y.toModel.unpack = .finite s m e hm) : (x * y).isNaN = false := by
  obtain ⟨s, m, e, hm, hy⟩ := hy
  have hx := unpack_ne_of_isNaN hx
  have hproduct : UnpackedFloat.mul .binary64 x.toModel.unpack y.toModel.unpack ≠
      .notANumber := by
    rw [hy]
    cases hcases : x.toModel.unpack with
    | notANumber => exact absurd hcases hx
    | infinity => exact UnpackedFloat.noConfusion
    | zero => exact UnpackedFloat.noConfusion
    | finite => exact roundWithAccuracy_ne _ _ _ _
  exact isNaN_pack hproduct

/-- A sum is a number where no two infinities meet. -/
theorem isNaN_add {x y : Float} (hx : x.isNaN = false) (hy : IsFinite y) :
    (x + y).isNaN = false := by
  have hx := unpack_ne_of_isNaN hx
  obtain ⟨hnumber, hfinite⟩ := hy
  have hsum : UnpackedFloat.add .binary64 x.toModel.unpack y.toModel.unpack ≠ .notANumber := by
    cases hleft : x.toModel.unpack with
    | notANumber => exact absurd hleft hx
    | infinity =>
        cases hright : y.toModel.unpack with
        | notANumber => exact absurd hright hnumber
        | infinity s => exact absurd hright (hfinite s)
        | zero => exact UnpackedFloat.noConfusion
        | finite => exact UnpackedFloat.noConfusion
    | zero s =>
        cases hright : y.toModel.unpack with
        | notANumber => exact absurd hright hnumber
        | infinity => exact UnpackedFloat.noConfusion
        | zero t => cases s <;> cases t <;> exact UnpackedFloat.noConfusion
        | finite => exact UnpackedFloat.noConfusion
    | finite =>
        cases hright : y.toModel.unpack with
        | notANumber => exact absurd hright hnumber
        | infinity => exact UnpackedFloat.noConfusion
        | zero => exact UnpackedFloat.noConfusion
        | finite => exact normalize_ne _ _ _
  exact isNaN_pack hsum

end Binary
end ComponentMarkup
