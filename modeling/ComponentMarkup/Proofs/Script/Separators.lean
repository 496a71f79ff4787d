import ComponentMarkup.Proofs.Script.Readings

/-!
# What separates tokens

Blanks and closed comments are passed over as a whole, whatever stands in the comments.
-/

namespace ComponentMarkup
namespace Script

/-- Blanks and closed comments, in any order. -/
inductive IsGap : List Char → Prop where
  | nil : IsGap []
  | blank {c rest} (isBlank : Text.isBlank c = true) (more : IsGap rest) : IsGap (c :: rest)
  | line {body rest} (unbroken : '\n' ∉ body) (more : IsGap rest) :
      IsGap ('/' :: '/' :: (body ++ '\n' :: rest))
  | block {body rest} (unclosed : ¬ ['*', '/'] <:+: body) (more : IsGap rest) :
      IsGap ('/' :: '*' :: (body ++ '*' :: '/' :: rest))

/-- A gap that starts with a blank.  A slash in front of it starts no comment, and no
word or number goes on with it. -/
inductive IsSeparator : List Char → Prop where
  | blank {c gap} (isBlank : Text.isBlank c = true) (more : IsGap gap) : IsSeparator (c :: gap)

theorem IsSeparator.isGap {separator : List Char} (h : IsSeparator separator) :
    IsGap separator := by
  cases h with
  | blank isBlank more => exact .blank isBlank more

/-!
# Comments
-/

theorem gapSize_unbroken {body : List Char} (h : '\n' ∉ body) (count : Nat) (rest : List Char) :
    gapSize .lineComment count (body ++ rest) =
      gapSize .lineComment (count + body.length) rest := by
  induction body generalizing count with
  | nil => rfl
  | cons c body ih =>
      rw [List.mem_cons, not_or] at h
      obtain ⟨hc, hbody⟩ := h
      rw [List.cons_append, gapSize, if_neg (Ne.symm hc), ih hbody, List.length_cons,
        Nat.add_assoc count, Nat.add_comm 1]

/-- Only a star and a slash close a comment, from inside it or behind one of its stars. -/
theorem gapSize_unclosed (body rest : List Char) (count : Nat) :
    (¬ ['*', '/'] <:+: body → ∃ gap, (gap = .blockComment ∨ gap = .blockStar) ∧
      gapSize .blockComment count (body ++ rest) = gapSize gap (count + body.length) rest) ∧
    (¬ ['*', '/'] <:+: '*' :: body → ∃ gap, (gap = .blockComment ∨ gap = .blockStar) ∧
      gapSize .blockStar count (body ++ rest) = gapSize gap (count + body.length) rest) := by
  induction body generalizing count with
  | nil => exact ⟨fun _ => ⟨.blockComment, .inl rfl, rfl⟩, fun _ => ⟨.blockStar, .inr rfl, rfl⟩⟩
  | cons c body ih =>
      obtain ⟨hinside, hstar⟩ := ih (count + 1)
      have hcount : count + (c :: body).length = count + 1 + body.length := by
        rw [List.length_cons]
        omega
      rw [hcount, List.cons_append]
      constructor
      · intro h
        rw [gapSize]
        split
        · rename_i hc
          rw [hc] at h
          exact hstar h
        · exact hinside (mt List.infix_cons h)
      · intro h
        have hslash : c ≠ '/' := by
          rintro rfl
          exact h (List.prefix_append ['*', '/'] body).isInfix
        rw [gapSize, if_neg hslash]
        split
        · rename_i hc
          rw [hc] at h
          exact hstar (mt List.infix_cons h)
        · exact hinside (mt (List.infix_cons ∘ List.infix_cons) h)

theorem gapSize_line {body : List Char} (h : '\n' ∉ body) (rest : List Char) :
    gapSize .blanks 0 ('/' :: '/' :: (body ++ '\n' :: rest)) =
      gapSize .blanks (body.length + 3) rest := by
  have hmark : ∀ cs, gapSize .blanks 0 ('/' :: '/' :: cs) = gapSize .lineComment 2 cs :=
    fun _ => rfl
  rw [hmark, gapSize_unbroken h, Nat.add_comm 2]
  rfl

theorem gapSize_block {body : List Char} (h : ¬ ['*', '/'] <:+: body) (rest : List Char) :
    gapSize .blanks 0 ('/' :: '*' :: (body ++ '*' :: '/' :: rest)) =
      gapSize .blanks (body.length + 4) rest := by
  have hmark : ∀ cs, gapSize .blanks 0 ('/' :: '*' :: cs) = gapSize .blockComment 2 cs :=
    fun _ => rfl
  obtain ⟨gap, hgap, hbody⟩ := (gapSize_unclosed body ('*' :: '/' :: rest) 2).1 h
  rw [hmark, hbody, Nat.add_comm 2]
  rcases hgap with rfl | rfl <;> rfl

/-- A slash that starts no comment is a token. -/
theorem gapSize_slash {rest : List Char} (hrest : ∀ d ∈ rest.head?, d ≠ '/' ∧ d ≠ '*') :
    gapSize .blanks 0 ('/' :: rest) = 0 := by
  cases rest with
  | nil => rfl
  | cons d ds =>
      obtain ⟨hslash, hstar⟩ := hrest d rfl
      have hmark : gapSize .blanks 0 ('/' :: d :: ds) = gapSize .slash 0 (d :: ds) := rfl
      rw [hmark, gapSize, if_neg hslash, if_neg hstar]

/-!
# Gaps
-/

theorem IsGap.gapSize_append {gap : List Char} (h : IsGap gap) (rest : List Char) :
    gapSize .blanks 0 (gap ++ rest) = gapSize .blanks 0 rest + gap.length := by
  have hbehind : ∀ count more, gapSize .blanks count (more ++ rest) =
      gapSize .blanks 0 (more ++ rest) + count := by
    intro count more
    rw [← gapSize_add, Nat.zero_add]
  induction h with
  | nil => rfl
  | blank isBlank _ ih =>
      rw [List.cons_append, gapSize_of_isBlank isBlank, ih]
      rfl
  | @line body gap unbroken _ ih =>
      rw [List.cons_append, List.cons_append, List.append_assoc, List.cons_append,
        gapSize_line unbroken, hbehind, ih]
      simp only [List.length_cons, List.length_append]
      omega
  | @block body gap unclosed _ ih =>
      rw [List.cons_append, List.cons_append, List.append_assoc, List.cons_append,
        List.cons_append, gapSize_block unclosed, hbehind, ih]
      simp only [List.length_cons, List.length_append]
      omega

theorem readings_gap {gap : List Char} (h : IsGap gap) (rest : List Char) :
    readings (gap ++ rest) = readings rest :=
  readings_of_gapSize (h.gapSize_append rest)

end Script
end ComponentMarkup
