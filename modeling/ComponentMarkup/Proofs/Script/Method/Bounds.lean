import ComponentMarkup.Proofs.Script.Method.Cutting
import ComponentMarkup.Proofs.Script.Method.Searching

/-!
# Methods stay within bounds

Below `2 ^ 53` characters every length is exact as a binary number.  There no method has a fault on
cells, and on cells it gives what it gives on the text: each position is checked before the access
that it is used for, and what rounding changes is far beyond the limits.
-/

namespace ComponentMarkup
namespace Script
namespace Method
namespace Cells

open Binary Whole

/-! ## Positions in rows -/

theorem lt_wordCount {place : Nat} (h : place ≤ 2 ^ 53) : place < wordCount :=
  h.trans_lt (by decide)

theorem toPlace_natCast {place : Nat} (h : place < wordCount) : (finite place).toPlace = place := by
  rw [toPlace, Int.toNat_natCast, Nat.min_eq_left (Nat.le_sub_one_of_lt h)]

theorem toPlace_of_le_zero {place : Whole} (h : place ≤ finite 0) : place.toPlace = 0 := by
  cases place with
  | negativeInfinity => rfl
  | positiveInfinity => exact absurd finite_lt_positiveInfinity h.not_gt
  | finite place => rw [toPlace, Int.toNat_of_nonpos (finite_le_finite.mp h), Nat.zero_min]

/-- A number below zero names the first place anyway. -/
theorem toPlace_max_zero (place : Whole) : (max place (finite 0)).toPlace = place.toPlace := by
  rcases le_total place (finite 0) with hle | hle
  · rw [max_eq_right hle, toPlace_of_le_zero hle, toPlace_of_le_zero (le_refl _)]
  · rw [max_eq_left hle]

/-- A whole number that is at most `2 ^ 53` names the same place after rounding. -/
theorem toPlace_rounded {i : Int} (h : i ≤ 2 ^ 53) : (rounded i).toPlace = i.toNat := by
  rcases le_or_gt 0 i with hinside | hbefore
  · obtain ⟨place, rfl⟩ := Int.eq_ofNat_of_zero_le hinside
    rw [rounded_of_small (by omega), toPlace_natCast (lt_wordCount (by omega)),
      Int.toNat_natCast]
  · have hzero : rounded i ≤ finite 0 := by
      rw [← rounded_of_small (i := 0) (by decide)]
      exact rounded_mono hbefore.le
    rw [toPlace_of_le_zero hzero, Int.toNat_of_nonpos hbefore.le]

section Positions

variable {length : Nat} (h : length < 2 ^ 53)

include h

theorem rounded_length : rounded length = finite length :=
  rounded_of_small (by omega)

theorem toPlace_min (place : Whole) :
    (min place (rounded length)).toPlace = clampedPlace length place := by
  have hword := lt_wordCount h.le
  rw [rounded_length h]
  rcases le_total place (finite length) with hle | hle
  · rw [min_eq_left hle]
    cases place with
    | negativeInfinity => rfl
    | positiveInfinity => exact absurd finite_lt_positiveInfinity hle.not_gt
    | finite place =>
        rw [finite_le_finite] at hle
        rw [toPlace, clampedPlace, Nat.min_eq_left (by omega), Nat.min_eq_left (by omega)]
  · rw [min_eq_right hle, toPlace_natCast hword]
    cases place with
    | negativeInfinity => exact absurd negativeInfinity_lt_finite hle.not_gt
    | positiveInfinity => rfl
    | finite place =>
        rw [finite_le_finite] at hle
        rw [clampedPlace, Nat.min_eq_right (by omega)]

theorem clampedIndex_eq : clampedIndex length = clampedPlace length := by
  funext place
  rw [clampedIndex, max_comm, toPlace_max_zero, toPlace_min h]

theorem relativeIndex_eq : relativeIndex length = relativePlace length := by
  funext place
  rw [relativeIndex, toPlace_max_zero, toPlace_min h, rounded_length h]
  cases place with
  | negativeInfinity => exact if_pos negativeInfinity_lt_finite
  | positiveInfinity => exact if_neg finite_lt_positiveInfinity.not_gt
  | finite place =>
      rw [relativePlace]
      by_cases hplace : place < 0
      · rw [if_pos (finite_lt_finite.mpr hplace), if_pos hplace, Int.ofNat_eq_natCast]
        exact toPlace_rounded (by omega)
      · rw [if_neg (mt finite_lt_finite.mp hplace), if_neg hplace, clampedPlace]

end Positions

/-! ## Operations on rows -/

section Rows

variable {cells : List Char}

theorem cut_eq {start stop : Nat} (h : stop ≤ cells.length) :
    cut start stop cells = .ok (between start stop cells) := by
  rw [cut]
  split
  · rename_i hle
    rw [between, Nat.sub_eq_zero_of_le hle, List.take_zero]
  · rename_i hlt
    exact range_eq_ok (Nat.le_of_not_le hlt) h

theorem placeOr_le {default bound : Nat} {rule : Whole → Nat} (h : default ≤ bound)
    (hrule : ∀ place, rule place ≤ bound) (v : Value) : placeOr default rule v ≤ bound := by
  unfold placeOr
  split
  · exact h
  · exact hrule _

variable (h : cells.length < 2 ^ 53)

include h

theorem charAt_eq (place : Whole) : Cells.charAt place cells = .ok (Method.charAt place cells) := by
  rw [Cells.charAt, rounded_length h]
  cases place with
  | negativeInfinity => exact if_pos (.inl negativeInfinity_lt_finite)
  | positiveInfinity => exact if_pos (.inr (le_positiveInfinity _))
  | finite place =>
      simp only [finite_lt_finite, finite_le_finite]
      cases place with
      | negSucc place => exact if_pos (.inl (Int.negSucc_lt_zero place))
      | ofNat place =>
          rw [Method.charAt, Int.ofNat_eq_natCast]
          by_cases hinside : place < cells.length
          · rw [if_neg (by omega), toPlace_natCast (lt_wordCount (hinside.trans h).le),
              element_eq_ok hinside, List.getElem?_eq_getElem hinside]
            rfl
          · rw [if_pos (.inr (by omega)), List.getElem?_eq_none (by omega)]

theorem slice_eq (start stop : Value) :
    Cells.slice start stop cells = .ok (Method.slice start stop cells) := by
  rw [Cells.slice, relativeIndex_eq h]
  exact cut_eq (placeOr_le (Nat.le_refl _) (relativePlace_le _) stop)

theorem substring_eq (a b : Value) :
    Cells.substring a b cells = .ok (Method.substring a b cells) := by
  have ha := placeOr_le (Nat.zero_le _) (clampedPlace_le cells.length) a
  have hb := placeOr_le (Nat.le_refl _) (clampedPlace_le cells.length) b
  rw [Cells.substring, clampedIndex_eq h]
  exact cut_eq (Nat.max_le.mpr ⟨ha, hb⟩)

end Rows

/-! ## Repetition -/

theorem appendTimes_empty (times : Nat) (out : String) : appendTimes "" times out = out := by
  induction times generalizing out with
  | zero => rfl
  | succ times ih => rw [appendTimes, ih, String.append_empty]

/-- Saturation does not change which repetitions are too long. -/
theorem saturated_tooLong_iff (bytes count : Nat) :
    lengthLimit < min (bytes * min count (wordCount - 1)) (wordCount - 1) ↔
      lengthLimit < bytes * count := by
  have hlimit : lengthLimit < wordCount - 1 := by decide
  rw [lt_min_iff, and_iff_left hlimit]
  constructor
  · exact fun h => h.trans_le (Nat.mul_le_mul_left bytes (Nat.min_le_left _ _))
  · intro h
    rcases Nat.le_total count (wordCount - 1) with hle | hle
    · rwa [Nat.min_eq_left hle]
    · have hbytes : 0 < bytes := Nat.pos_of_mul_pos_right (Nat.zero_lt_of_lt h)
      rw [Nat.min_eq_right hle]
      exact hlimit.trans_le (Nat.le_mul_of_pos_left _ hbytes)

/-- What is not too long fits in a row. -/
theorem copies_of_short {s : String} {count : Nat} (h : s.utf8ByteSize * count ≤ lengthLimit) :
    copies s (min count (wordCount - 1)) =
      .ok (if s.isEmpty then "" else appendTimes s count "") := by
  have hsaturated : s.utf8ByteSize * min count (wordCount - 1) ≤ lengthLimit :=
    (Nat.mul_le_mul_left _ (Nat.min_le_left _ _)).trans h
  rw [copies_eq_ok (hsaturated.trans_lt (by decide))]
  by_cases hempty : s = ""
  · rw [hempty, appendTimes_empty]
    rfl
  · have hbytes : 0 < s.utf8ByteSize :=
      Nat.pos_of_ne_zero (mt String.utf8ByteSize_eq_zero_iff.mp hempty)
    have hcount : count ≤ lengthLimit := (Nat.le_mul_of_pos_left count hbytes).trans h
    rw [Nat.min_eq_left (hcount.trans (by decide)), if_neg (by simpa using hempty)]

theorem repeated_eq (s : String) (count : Whole) :
    Cells.repeated s count = .ok (Method.repeated s count) := by
  rw [Cells.repeated]
  cases count with
  | negativeInfinity => exact if_pos (.inl negativeInfinity_lt_finite)
  | positiveInfinity => exact if_pos (.inr rfl)
  | finite count =>
      simp only [finite_lt_finite, reduceCtorEq, or_false]
      cases count with
      | negSucc count => exact if_pos (Int.negSucc_lt_zero count)
      | ofNat count =>
          have hplace : (finite (Int.ofNat count)).toPlace = min count (wordCount - 1) := rfl
          rw [if_neg (by simp), Method.repeated, hplace]
          simp only [saturated_tooLong_iff]
          split
          · rfl
          · rename_i hshort
            rw [copies_of_short (Nat.le_of_not_lt hshort)]
            cases s.isEmpty <;> rfl

/-! ## Padding -/

theorem widest_pos {cs : List Char} (h : cs ≠ []) : 0 < widest cs := by
  cases cs with
  | nil => exact absurd rfl h
  | cons c rest =>
      have hgrows : ∀ (rest : List Char) (width : Nat),
          width ≤ rest.foldl (fun width c => max width c.utf8Size) width := by
        intro rest
        induction rest with
        | nil => exact fun width => Nat.le_refl width
        | cons c rest ih => exact fun width => (Nat.le_max_left _ _).trans (ih _)
      calc 0 < c.utf8Size := c.utf8Size_pos
        _ ≤ max 0 c.utf8Size := Nat.le_max_right _ _
        _ ≤ widest (c :: rest) := hgrows rest _

/-- Rounding does not change which paddings are too long. -/
theorem tooLong_iff {s : String} (h : s.length < 2 ^ 53) {target width : Nat}
    (htarget : s.length ≤ target) (hwidth : 0 < width) :
    finite lengthLimit < sum (rounded s.utf8ByteSize)
        ((sum (finite target) (rounded (-s.length))).times width) ↔
      lengthLimit < s.utf8ByteSize + (target - s.length) * width := by
  have hbound : lengthLimit < 2 ^ 53 := by decide
  have hmissing : sum (finite target) (rounded (-s.length)) =
      rounded ((target - s.length : Nat) : Int) := by
    rw [rounded_of_small (by omega), Whole.sum, Nat.cast_sub htarget, sub_eq_add_neg]
  rw [hmissing]
  exact ((AgreesUpTo.rounded hbound _).sum hbound
    ((AgreesUpTo.rounded hbound _).times hbound hwidth)).lt_iff

/-- Endless padding is too long. -/
theorem lt_endless (s : String) (width : Nat) :
    finite lengthLimit < sum (rounded s.utf8ByteSize)
      ((sum positiveInfinity (rounded (-s.length))).times width) := by
  have hbound : lengthLimit < 2 ^ 53 := by decide
  have hendless : AgreesUpTo lengthLimit positiveInfinity (lengthLimit + 1) :=
    .inr ⟨finite_lt_positiveInfinity, Nat.lt_succ_self _⟩
  exact ((AgreesUpTo.rounded hbound _).sum hbound hendless).lt_iff.mpr (by omega)

theorem padding_eq {s : String} (h : s.length < 2 ^ 53) (target : Whole) (pattern : String) :
    Cells.padding s target pattern = .ok (Method.padding s target pattern) := by
  rw [Cells.padding, rounded_length h]
  unfold Method.padding
  generalize pattern.toList = cs
  cases target with
  | negativeInfinity => exact if_pos (.inl (negativeInfinity_le _))
  | positiveInfinity =>
      dsimp only
      by_cases hempty : cs.isEmpty = true
      · rw [if_pos (.inr hempty), if_pos hempty]
      · have hlong : ¬ (Whole.positiveInfinity ≤ finite s.length ∨ cs.isEmpty = true) :=
          not_or.mpr ⟨finite_lt_positiveInfinity.not_ge, hempty⟩
        rw [if_neg hlong, if_pos (lt_endless s (widest cs)), if_neg hempty]
  | finite target =>
      simp only [finite_le_finite]
      cases target with
      | negSucc target => exact if_pos (.inl (by omega))
      | ofNat target =>
          simp only [Int.ofNat_eq_natCast, Int.ofNat_le]
          split
          · rfl
          · rename_i hgrows
            obtain ⟨htarget, hempty⟩ := not_or.mp hgrows
            have hwidth : 0 < widest cs := widest_pos (mt List.isEmpty_iff.mpr hempty)
            simp only [tooLong_iff h (Nat.le_of_not_le htarget) hwidth]
            split
            · rfl
            · rename_i hshort
              have hcount : target - s.length ≤ lengthLimit :=
                (Nat.le_mul_of_pos_right _ hwidth).trans (by omega)
              have hword : target < wordCount := by
                unfold lengthLimit at hcount
                unfold wordCount
                omega
              rw [toPlace_natCast hword, difference_eq_ok (Nat.le_of_not_le htarget)]
              rfl

/-! ## Calls -/

theorem toList_length_lt {s : String} (h : s.length < 2 ^ 53) : s.toList.length < 2 ^ 53 := by
  rwa [String.length_toList]

/-- On cells a method has no fault and gives what it gives on the text. -/
theorem call_eq {s : String} (h : s.length < 2 ^ 53) (method : String) (arguments : List Value) :
    Cells.call s method arguments = .ok (Method.call s method arguments) := by
  have hcells := toList_length_lt h
  unfold Cells.call
  dsimp only
  split
  · rw [charAt_eq hcells]
    rfl
  · rw [find_eq, clampedIndex_eq hcells]
    rfl
  · rw [slice_eq hcells]
    rfl
  · rw [substring_eq hcells]
    rfl
  · rw [repeated_eq]
    rfl
  · rw [padding_eq h]
    rfl
  · rw [padding_eq h]
    rfl
  · rfl

theorem readPlace_eq {s : String} (h : s.length < 2 ^ 53) (place : Float) :
    Cells.readPlace s place = Script.readPlace s place := by
  unfold Cells.readPlace Script.readPlace
  cases toInt? place with
  | none => rfl
  | some place =>
      cases place with
      | negSucc place => exact if_pos (Int.negSucc_lt_zero place)
      | ofNat place =>
          dsimp only
          rw [if_neg (by simp)]
          have hsame : s.toList[(finite (Int.ofNat place)).toPlace]? = s.toList[place]? := by
            by_cases hword : place < wordCount
            · rw [Int.ofNat_eq_natCast, toPlace_natCast hword]
            · -- A place that does not fit in 64 bits is behind the text as much as the last one.
              have hbehind : ∀ i, 2 ^ 53 ≤ i → s.toList[i]? = none := by
                intro i hi
                rw [List.getElem?_eq_none_iff, String.length_toList]
                omega
              have hlast : 2 ^ 53 ≤ (finite (Int.ofNat place)).toPlace := by
                rw [toPlace, Int.ofNat_eq_natCast, Int.toNat_natCast]
                unfold wordCount at hword ⊢
                omega
              rw [hbehind _ hlast, hbehind place (by unfold wordCount at hword; omega)]
          cases hfound : s.toList[place]? with
          | none => simp only [hsame, hfound]
          | some c => simp only [hsame, hfound]

theorem readIndex_eq {s : String} (h : s.length < 2 ^ 53) (index : Value) :
    Script.readIndex (.string s) index = .ok (Cells.readIndex s index) := by
  rw [Cells.readIndex, readPlace_eq h]
  rfl

end Cells

/-! ## What can come of a call -/

/-- The methods that a text has. -/
def names : List String :=
  ["toUpperCase", "toLowerCase", "trim", "trimStart", "trimEnd", "charAt", "indexOf", "includes",
    "startsWith", "endsWith", "slice", "substring", "repeat", "padStart", "padEnd", "replace",
    "replaceAll", "concat"]

/-- What can come of a call: a value, a range error of a method that makes longer texts, or a type
error where there is no such method. -/
inductive CanResult (method : String) : Except EvalError Value → Prop where
  | value (v : Value) : CanResult method (.ok v)
  | range (grows : method ∈ ["repeat", "padStart", "padEnd"]) (cause : RangeError) :
      CanResult method (.error (.ofRange cause))
  | unknown (isUnknown : method ∉ names) :
      CanResult method (.error (.ofType (.notFunction ("string." ++ method))))

theorem canResult_ofResult {method : String} (grows : method ∈ ["repeat", "padStart", "padEnd"])
    (result : Except RangeError String) (use : String → String) :
    CanResult method (Cells.ofResult result use) := by
  cases result with
  | ok text => exact .value (.string (use text))
  | error cause => exact .range grows cause

theorem canResult_call (s method : String) (arguments : List Value) :
    CanResult method (call s method arguments) := by
  unfold call
  dsimp only
  split
  case h_13 => exact canResult_ofResult (by decide) (repeated _ _) id
  case h_14 => exact canResult_ofResult (by decide) (padding _ _ _) (· ++ s)
  case h_15 => exact canResult_ofResult (by decide) (padding _ _ _) (s ++ ·)
  case h_19 => exact .unknown (by simp_all [names])
  all_goals exact .value _

/-- Below `2 ^ 53` characters, a call of a method has no fault on the cells of the text and gives
there what it gives on the text: a value, a range error of a method that makes longer texts, or a
type error where there is no such method.  An index always has a value, the same on the cells as on
the text. -/
theorem call_withinBounds {s : String} (h : s.length < 2 ^ 53) (method : String)
    (arguments : List Value) :
    Cells.call s method arguments = .ok (call s method arguments) ∧
      CanResult method (call s method arguments) ∧
      ∀ index, readIndex (.string s) index = .ok (Cells.readIndex s index) :=
  ⟨Cells.call_eq h method arguments, canResult_call s method arguments, Cells.readIndex_eq h⟩

theorem call_withinBounds_padding :
    "5".length < 2 ^ 53 ∧
      Cells.call "5" "padStart" [.string "3.9", .number (Binary.ofNat 0)] =
        .ok (call "5" "padStart" [.string "3.9", .number (Binary.ofNat 0)]) ∧
      CanResult "padStart" (call "5" "padStart" [.string "3.9", .number (Binary.ofNat 0)]) ∧
      readIndex (.string "5") (.bool false) = .ok (Cells.readIndex "5" (.bool false)) := by
  have hlength : "5".length < 2 ^ 53 := by decide
  obtain ⟨hcells, hresult, hindex⟩ :=
    call_withinBounds hlength "padStart" [.string "3.9", .number (Binary.ofNat 0)]
  exact ⟨hlength, hcells, hresult, hindex (.bool false)⟩

/-- From there on a length can be rounded up, and a position can name a place behind the row. -/
example : Cells.relativeIndex (2 ^ 53 + 3) .positiveInfinity = 2 ^ 53 + 4 := by
  decide

end Method
end Script
end ComponentMarkup
