import ComponentMarkup.Proofs.Number.Wholes
import ComponentMarkup.Script.Method

/-!
# Methods that cut

Whatever value gives the position, it names one place of the text for both parts, so the part
before it and the part from it on make up the text.  Between two positions their order does not
matter to `substring`.
-/

namespace ComponentMarkup
namespace Script
namespace Method

open Binary

/-! ## One place for each position -/

theorem placeOr_of_ne {v : Value} (h : v ≠ .undefined) (default : Nat) (rule : Whole → Nat) :
    placeOr default rule v = rule v.toWhole := by
  cases v with
  | undefined => exact absurd rfl h
  | null => rfl
  | bool => rfl
  | number => rfl
  | string => rfl

theorem relativePlace_le (length : Nat) (place : Whole) : relativePlace length place ≤ length := by
  unfold relativePlace
  split
  · exact Nat.zero_le length
  · exact Nat.le_refl length
  · split
    · rw [Int.ofNat_eq_natCast]
      omega
    · exact Nat.min_le_right _ length

theorem clampedPlace_le (length : Nat) (place : Whole) : clampedPlace length place ≤ length := by
  unfold clampedPlace
  split
  · exact Nat.zero_le length
  · exact Nat.le_refl length
  · exact Nat.min_le_right _ length

theorem toWhole_zero : (Value.number (ofNat 0)).toWhole = .finite 0 := by
  have hzero := Whole.rounded_of_small (i := (0 : Nat)) (by decide)
  rwa [Whole.rounded, Whole.ofInt_natCast] at hzero

/-! ## The two parts -/

section Parts

variable {cs : List Char}

theorem between_zero (place : Nat) : between 0 place cs = cs.take place := by
  rw [between, List.drop_zero, Nat.sub_zero]

theorem between_length (place : Nat) : between place cs.length cs = cs.drop place := by
  rw [between, ← List.length_drop, List.take_length]

variable {k : Value} (hk : k ≠ .undefined)

include hk

theorem slice_front : slice (.number (ofNat 0)) k cs =
    cs.take (relativePlace cs.length k.toWhole) := by
  have hstart : placeOr 0 (relativePlace cs.length) (.number (ofNat 0)) = 0 := by
    rw [placeOr_of_ne (by simp), toWhole_zero, relativePlace, if_neg (by decide), Int.toNat_zero,
      Nat.zero_min]
  rw [slice, hstart, placeOr_of_ne hk, between_zero]

theorem slice_back : slice k .undefined cs = cs.drop (relativePlace cs.length k.toWhole) := by
  rw [slice, placeOr_of_ne hk]
  exact between_length _

theorem substring_front : substring (.number (ofNat 0)) k cs =
    cs.take (clampedPlace cs.length k.toWhole) := by
  have hstart : placeOr 0 (clampedPlace cs.length) (.number (ofNat 0)) = 0 := by
    rw [placeOr_of_ne (by simp), toWhole_zero, clampedPlace, Int.toNat_zero, Nat.zero_min]
  rw [substring, hstart, placeOr_of_ne hk, Nat.zero_min, Nat.zero_max]
  exact between_zero _

theorem substring_back : substring k .undefined cs =
    cs.drop (clampedPlace cs.length k.toWhole) := by
  have hle := clampedPlace_le cs.length k.toWhole
  have hstop : placeOr cs.length (clampedPlace cs.length) .undefined = cs.length := rfl
  rw [substring, hstop, placeOr_of_ne hk, Nat.min_eq_left hle, Nat.max_eq_right hle]
  exact between_length _

theorem substring_comm {b : Value} (hb : b ≠ .undefined) :
    substring k b cs = substring b k cs := by
  simp only [substring, placeOr_of_ne hk, placeOr_of_ne hb]
  rw [Nat.min_comm, Nat.max_comm]

end Parts

/-- The parts of a text before and from a position make up the text, whatever value gives the
position, and `substring` takes its two positions in either order. -/
theorem cut_append (s : String) {k : Value} (hk : k ≠ .undefined) :
    (∃ front back, call s "slice" [.number (ofNat 0), k] = .ok (.string front) ∧
      call s "slice" [k] = .ok (.string back) ∧ front ++ back = s) ∧
    (∃ front back, call s "substring" [.number (ofNat 0), k] = .ok (.string front) ∧
      call s "substring" [k] = .ok (.string back) ∧ front ++ back = s) ∧
    ∀ b, b ≠ .undefined → call s "substring" [k, b] = call s "substring" [b, k] := by
  have hwhole : ∀ place, String.ofList (s.toList.take place) ++
      String.ofList (s.toList.drop place) = s := by
    intro place
    rw [← String.ofList_append, List.take_append_drop, String.ofList_toList]
  refine ⟨⟨_, _, ?_, ?_, hwhole (relativePlace s.toList.length k.toWhole)⟩,
    ⟨_, _, ?_, ?_, hwhole (clampedPlace s.toList.length k.toWhole)⟩, fun b hb => ?_⟩
  · exact congrArg (fun cs => Except.ok (ofChars cs)) (slice_front hk)
  · exact congrArg (fun cs => Except.ok (ofChars cs)) (slice_back hk)
  · exact congrArg (fun cs => Except.ok (ofChars cs)) (substring_front hk)
  · exact congrArg (fun cs => Except.ok (ofChars cs)) (substring_back hk)
  · exact congrArg (fun cs => Except.ok (ofChars cs)) (substring_comm hk hb)

theorem cut_append_fraction :
    Value.string " -2.7" ≠ .undefined ∧ Value.null ≠ .undefined ∧
    (∃ front back, call "héllo" "slice" [.number (ofNat 0), .string " -2.7"] = .ok (.string front) ∧
      call "héllo" "slice" [.string " -2.7"] = .ok (.string back) ∧ front ++ back = "héllo") ∧
    (∃ front back,
      call "héllo" "substring" [.number (ofNat 0), .string " -2.7"] = .ok (.string front) ∧
      call "héllo" "substring" [.string " -2.7"] = .ok (.string back) ∧ front ++ back = "héllo") ∧
    call "héllo" "substring" [.string " -2.7", .null] =
      call "héllo" "substring" [.null, .string " -2.7"] := by
  obtain ⟨hslice, hsubstring, hcomm⟩ := cut_append "héllo" (k := .string " -2.7") (by simp)
  exact ⟨by simp, by simp, hslice, hsubstring, hcomm .null (by simp)⟩

end Method
end Script
end ComponentMarkup
