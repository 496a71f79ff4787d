import Mathlib
import ComponentMarkup.Text.Substitution

/-!
# What searching finds

A pattern is found in a text exactly if the text has it somewhere.  The place that is found is
the first one from the start of the search on at which the pattern stands, and the empty pattern
is found where the search starts.
-/

namespace ComponentMarkup
namespace Text

theorem isSome_findFrom_iff {pattern cs : List Char} (index : Nat) :
    (findFrom pattern index cs).isSome = true ↔ pattern <:+: cs := by
  induction cs generalizing index with
  | nil =>
      rw [findFrom, List.infix_nil, ← List.isEmpty_iff]
      cases pattern.isEmpty <;> simp
  | cons c rest ih =>
      rw [findFrom, List.infix_cons_iff, ← List.isPrefixOf_iff_prefix, ← ih (index + 1)]
      cases pattern.isPrefixOf (c :: rest) <;> simp

theorem contains_iff {pattern cs : List Char} :
    contains pattern cs = true ↔ pattern <:+: cs :=
  isSome_findFrom_iff 0

/-! ## Places -/

/-- Whether a pattern stands at a place of a text: the characters from there on, as many as the
pattern has, are the pattern. -/
def StandsAt (pattern cs : List Char) (place : Nat) : Prop :=
  (cs.drop place).take pattern.length = pattern

/-- What a search for a pattern is to find from a place on. -/
inductive IsFound (pattern cs : List Char) (start : Nat) : Option Nat → Prop where
  | empty (isEmpty : pattern = []) : IsFound pattern cs start (some (min start cs.length))
  | first {place} (isSome : pattern ≠ [])
      (isLeast : IsLeast {i | start ≤ i ∧ StandsAt pattern cs i} place) :
      IsFound pattern cs start (some place)
  | nowhere (isSome : pattern ≠ []) (isAbsent : ∀ i, start ≤ i → ¬ StandsAt pattern cs i) :
      IsFound pattern cs start none

section Places

variable {pattern cs : List Char}

theorem standsAt_iff {place : Nat} : StandsAt pattern cs place ↔ pattern <+: cs.drop place := by
  rw [StandsAt, List.prefix_iff_eq_take, eq_comm]

theorem standsAt_zero_iff : StandsAt pattern cs 0 ↔ pattern.isPrefixOf cs = true := by
  rw [standsAt_iff, List.drop_zero, List.isPrefixOf_iff_prefix]

theorem standsAt_drop {start place : Nat} :
    StandsAt pattern (cs.drop start) place ↔ StandsAt pattern cs (start + place) := by
  rw [StandsAt, StandsAt, List.drop_drop]

theorem StandsAt.lt_length {place : Nat} (h : StandsAt pattern cs place) (hsome : pattern ≠ []) :
    place < cs.length := by
  have hlength := (standsAt_iff.mp h).length_le
  have hpos := List.length_pos_iff.mpr hsome
  rw [List.length_drop] at hlength
  omega

/-- A search finds one thing only. -/
theorem IsFound.unique {start : Nat} {found other : Option Nat}
    (h : IsFound pattern cs start found) (hother : IsFound pattern cs start other) :
    found = other := by
  cases h with
  | empty isEmpty =>
      cases hother with
      | empty => rfl
      | first isSome => exact absurd isEmpty isSome
      | nowhere isSome => exact absurd isEmpty isSome
  | first isSome isLeast =>
      cases hother with
      | empty isEmpty => exact absurd isEmpty isSome
      | first _ isLeastOther => exact congrArg some (isLeast.unique isLeastOther)
      | nowhere _ isAbsent => exact absurd isLeast.1.2 (isAbsent _ isLeast.1.1)
  | nowhere isSome isAbsent =>
      cases hother with
      | empty isEmpty => exact absurd isEmpty isSome
      | first _ isLeast => exact absurd isLeast.1.2 (isAbsent _ isLeast.1.1)
      | nowhere => rfl

theorem isInfix_iff_exists_standsAt : pattern <:+: cs ↔ ∃ i, StandsAt pattern cs i := by
  constructor
  · rintro ⟨before, after, rfl⟩
    refine ⟨before.length, standsAt_iff.mpr ?_⟩
    rw [List.append_assoc, List.drop_left]
    exact List.prefix_append pattern after
  · rintro ⟨i, hstands⟩
    exact (standsAt_iff.mp hstands).isInfix.trans (List.drop_suffix i cs).isInfix

/-- What is found, counted from the front of the text, is the first place of the pattern. -/
theorem isLeast_of_findFrom {index place : Nat} (h : findFrom pattern index cs = some place) :
    ∃ i, place = index + i ∧ IsLeast {i | StandsAt pattern cs i} i := by
  induction cs generalizing index with
  | nil =>
      rw [findFrom] at h
      split at h
      · rename_i hempty
        cases h
        rw [List.isEmpty_iff.mp hempty]
        exact ⟨0, rfl, rfl, fun i _ => Nat.zero_le i⟩
      · cases h
  | cons c rest ih =>
      have hfront : StandsAt pattern (c :: rest) 0 ↔ pattern.isPrefixOf (c :: rest) = true :=
        standsAt_zero_iff
      rw [findFrom] at h
      split at h
      · rename_i hprefix
        cases h
        exact ⟨0, rfl, hfront.mpr hprefix, fun i _ => Nat.zero_le i⟩
      · rename_i hprefix
        obtain ⟨i, rfl, hstands, hleast⟩ := ih h
        refine ⟨i + 1, by omega, hstands, fun other hother => ?_⟩
        cases other with
        | zero => exact absurd (hfront.mp hother) hprefix
        | succ other => exact Nat.succ_le_succ (hleast hother)

theorem findFrom_nil (index : Nat) (cs : List Char) : findFrom [] index cs = some index := by
  cases cs <;> rfl

/-- A search finds what it is to find. -/
theorem isFound_indexOf? (pattern : List Char) (start : Nat) (cs : List Char) :
    IsFound pattern cs start (indexOf? pattern start cs) := by
  rw [indexOf?]
  by_cases hempty : pattern = []
  · rw [hempty, findFrom_nil]
    exact .empty rfl
  · cases hfound : findFrom pattern (min start cs.length) (cs.drop start) with
    | none =>
        refine .nowhere hempty fun i hstart hstands => ?_
        have hinfix : pattern <:+: cs.drop start :=
          isInfix_iff_exists_standsAt.mpr
            ⟨i - start, standsAt_drop.mpr (by rwa [Nat.add_sub_cancel' hstart])⟩
        have hsome := (isSome_findFrom_iff (min start cs.length)).mpr hinfix
        rw [hfound] at hsome
        cases hsome
    | some place =>
        obtain ⟨i, rfl, hstands, hleast⟩ := isLeast_of_findFrom hfound
        have hinside := (standsAt_drop.mp hstands).lt_length hempty
        rw [Nat.min_eq_left (by omega)]
        refine .first hempty ⟨⟨by omega, standsAt_drop.mp hstands⟩, ?_⟩
        rintro other ⟨hstart, hother⟩
        have hle := hleast (standsAt_drop.mpr (by rwa [Nat.add_sub_cancel' hstart]))
        omega

end Places

end Text
end ComponentMarkup
