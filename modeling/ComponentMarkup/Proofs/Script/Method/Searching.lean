import ComponentMarkup.Proofs.Script.Method.Cells
import ComponentMarkup.Proofs.Text.Bytes
import ComponentMarkup.Proofs.Text.Searching

/-!
# Methods that search

The search on cells never leaves its row and finds the first place from its start on at which the
pattern stands.  The methods that tell whether a text contains, starts with or ends with another
one agree with it, and with the bytes of the two texts.
-/

namespace ComponentMarkup
namespace Script
namespace Method

open Binary Text

namespace Cells

variable {pattern cells : List Char}

/-- In a part that is shorter than the pattern there is nothing to find. -/
theorem findFrom_eq_none {index : Nat} (h : cells.length < pattern.length) :
    findFrom pattern index cells = none := by
  have habsent : ¬ pattern <:+: cells := fun hinfix => h.not_ge hinfix.length_le
  rw [← isSome_findFrom_iff index] at habsent
  simpa using habsent

theorem between_window (place : Nat) :
    between place (place + pattern.length) cells = pattern ↔ StandsAt pattern cells place := by
  rw [between, Nat.add_sub_cancel_left]
  rfl

/-- From each place on, the search looks at all the places at which the pattern still fits. -/
theorem findAt_eq (hsome : pattern ≠ []) (hfits : pattern.length ≤ cells.length) {count : Nat} :
    ∀ {place : Nat}, cells.length - pattern.length + 1 - place = count →
      findAt pattern cells place count = .ok (findFrom pattern place (cells.drop place)) := by
  have hpos := List.length_pos_iff.mpr hsome
  induction count with
  | zero =>
      intro place hcount
      rw [findFrom_eq_none (by rw [List.length_drop]; omega)]
      rfl
  | succ count ih =>
      intro place hcount
      have hplace : place < cells.length := by omega
      have hwindow : between place (place + pattern.length) cells = pattern ↔
          pattern.isPrefixOf (cells.drop place) = true := by
        rw [between_window, standsAt_iff, List.isPrefixOf_iff_prefix]
      rw [List.drop_eq_getElem_cons hplace] at hwindow
      rw [findAt, range_eq_ok (by omega) (by omega), List.drop_eq_getElem_cons hplace, findFrom]
      change (if between place (place + pattern.length) cells = pattern then _ else _) = _
      split
      · rename_i hstands
        rw [if_pos (hwindow.mp hstands)]
        rfl
      · rename_i hother
        rw [if_neg fun hprefix => hother (hwindow.mpr hprefix)]
        exact ih (by omega)

/-- The search on cells has no fault and finds what the search of the text finds. -/
theorem find_eq (cells pattern : List Char) (start : Nat) :
    find cells pattern start = .ok (indexOf? pattern start cells) := by
  rw [find, indexOf?]
  by_cases hempty : pattern = []
  · rw [hempty, findFrom_nil]
    rfl
  · rw [if_neg (by rwa [List.isEmpty_iff])]
    split
    · rename_i hshort
      rw [findFrom_eq_none (by rw [List.length_drop]; omega)]
    · rename_i hfits
      rw [difference_eq_ok (Nat.le_of_not_lt hfits)]
      change findAt _ _ _ _ = _
      rw [findAt_eq hempty (Nat.le_of_not_lt hfits) rfl]
      by_cases hinside : start ≤ cells.length
      · rw [Nat.min_eq_left hinside]
      · have hshort : (cells.drop start).length < pattern.length := by
          have := List.length_pos_iff.mpr hempty
          rw [List.length_drop]
          omega
        rw [findFrom_eq_none hshort, findFrom_eq_none hshort]

end Cells

/-! ## Places as numbers -/

/-- The number of a place is zero only for the first place. -/
theorem ofNat_eq_zero_iff (place : Nat) : ofNat place = ofNat 0 ↔ place = 0 := by
  refine ⟨fun h => ?_, fun h => congrArg ofNat h⟩
  by_contra hpos
  have hlt : Whole.finite (0 : Nat) < Whole.rounded place :=
    (Whole.finite_lt_rounded_iff (by decide)).mpr (by omega)
  rw [Whole.rounded, Whole.ofInt_natCast, h, ← Whole.ofInt_natCast, ← Whole.rounded,
    Whole.rounded_of_small (by decide)] at hlt
  exact lt_irrefl _ hlt

/-- No place has the number that says that there is none. -/
theorem ofNat_ne_minusOne (place : Nat) : ofNat place ≠ ofInt (-1) := by
  intro h
  have hle : Whole.rounded 0 ≤ Whole.rounded place := Whole.rounded_mono (by omega)
  rw [Whole.rounded, Whole.rounded, Whole.ofInt_natCast, h, ← Whole.rounded, ← Whole.rounded,
    Whole.rounded_of_small (by decide), Whole.rounded_of_small (by decide),
    Whole.finite_le_finite] at hle
  exact absurd hle (by decide)

/-- The number of what is found tells whether there is something and whether it is at the first
place. -/
theorem exists_ofPlace (found : Option Nat) :
    ∃ place, ofPlace found = .number place ∧ (found.isSome = true ↔ place ≠ ofInt (-1)) ∧
      (found = some 0 ↔ place = ofNat 0) := by
  cases found with
  | none =>
      have hzero := (ofNat_ne_minusOne 0).symm
      exact ⟨ofInt (-1), rfl, by simp, by simp [hzero]⟩
  | some place =>
      have hsome := ofNat_ne_minusOne place
      exact ⟨ofNat place, rfl, by simp [hsome], by rw [Option.some_inj, ofNat_eq_zero_iff]⟩

/-! ## One text in another -/

section Occurrences

variable {pattern cs : List Char}

theorem indexOf?_zero : indexOf? pattern 0 cs = findFrom pattern 0 cs := by
  rw [indexOf?, Nat.zero_min, List.drop_zero]

theorem indexOf?_eq_zero_iff : indexOf? pattern 0 cs = some 0 ↔ pattern <+: cs := by
  rw [indexOf?_zero]
  constructor
  · intro h
    obtain ⟨i, hplace, hstands, _⟩ := isLeast_of_findFrom h
    obtain rfl : i = 0 := by omega
    have hprefix := standsAt_iff.mp hstands
    rwa [List.drop_zero] at hprefix
  · intro hprefix
    have hsome := (isSome_findFrom_iff 0).mpr hprefix.isInfix
    obtain ⟨place, hplace⟩ := Option.isSome_iff_exists.mp hsome
    obtain ⟨i, rfl, -, hleast⟩ := isLeast_of_findFrom hplace
    have hfirst : StandsAt pattern cs 0 := standsAt_iff.mpr hprefix
    rw [hplace, Nat.le_zero.mp (hleast hfirst)]

theorem suffix_iff_drop : pattern <:+ cs ↔ cs.drop (cs.length - pattern.length) = pattern := by
  rw [List.suffix_iff_eq_drop, eq_comm]

end Occurrences

/-- The search on cells has no fault and finds what it is to find, and the methods that search
agree with it: a text includes another one where it is found, starts with it where it is found at
the first place, and ends with it where its last characters are the other text.  Each of them can
be told from the bytes as well. -/
theorem searches_agree :
    (∀ (cells pattern : List Char) (start : Nat),
      Cells.find cells pattern start = .ok (indexOf? pattern start cells) ∧
        ∀ found, indexOf? pattern start cells = found ↔ IsFound pattern cells start found) ∧
    ∀ s t : String, ∃ place isIncluded isFront isEnd,
      call s "indexOf" [.string t] = .ok (.number place) ∧
      call s "includes" [.string t] = .ok (.bool isIncluded) ∧
      call s "startsWith" [.string t] = .ok (.bool isFront) ∧
      call s "endsWith" [.string t] = .ok (.bool isEnd) ∧
      ((isIncluded = true ↔ place ≠ ofInt (-1)) ∧
        (isIncluded = true ↔ bytes t.toList <:+: bytes s.toList)) ∧
      ((isFront = true ↔ place = ofNat 0) ∧
        (isFront = true ↔ bytes t.toList <+: bytes s.toList)) ∧
      ((isEnd = true ↔ s.toList.drop (s.length - t.length) = t.toList) ∧
        (isEnd = true ↔ bytes t.toList <:+ bytes s.toList)) := by
  refine ⟨fun cells pattern start => ⟨Cells.find_eq cells pattern start, fun found => ?_⟩,
    fun s t => ?_⟩
  · have hfound := isFound_indexOf? pattern start cells
    exact ⟨fun h => h ▸ hfound, hfound.unique⟩
  · have hincluded : contains t.toList s.toList = true ↔ t.toList <:+: s.toList := contains_iff
    have hfront : t.toList.isPrefixOf s.toList = true ↔ t.toList <+: s.toList :=
      List.isPrefixOf_iff_prefix
    have hend : t.toList.isSuffixOf s.toList = true ↔ t.toList <:+ s.toList :=
      List.isSuffixOf_iff_suffix
    rw [bytes_infix_iff, bytes_prefix_iff, bytes_suffix_iff]
    obtain ⟨place, hplace, hsome, hzero⟩ := exists_ofPlace (indexOf? t.toList 0 s.toList)
    refine ⟨place, contains t.toList s.toList, t.toList.isPrefixOf s.toList,
      t.toList.isSuffixOf s.toList, congrArg Except.ok hplace, rfl, rfl, rfl, ⟨?_, hincluded⟩,
      ⟨?_, hfront⟩, ?_, hend⟩
    · rw [← hsome, indexOf?_zero]
      rfl
    · rw [hfront, ← hzero, indexOf?_eq_zero_iff]
    · rw [hend, suffix_iff_drop, String.length_toList, String.length_toList]

end Method
end Script
end ComponentMarkup
