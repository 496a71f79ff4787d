import ComponentMarkup.Text.Substitution

/-!
# What replacing does

Replacing works from the left: an occurrence at the front gives way to the
replacement, and any other first character stays.
-/

namespace ComponentMarkup
namespace Text

theorem replaceOnto_eq_append (pattern replacement out : List Char) (skip : Nat)
    (cs : List Char) :
    replaceOnto pattern replacement out skip cs =
      out.reverse ++ replaceOnto pattern replacement [] skip cs := by
  induction cs generalizing out skip with
  | nil => simp [replaceOnto]
  | cons c rest ih =>
      cases skip with
      | succ skip =>
          rw [replaceOnto, replaceOnto]
          exact ih out skip
      | zero =>
          rw [replaceOnto, replaceOnto]
          split
          · rw [ih, ih (replacement.reverse ++ [])]
            simp
          · rw [ih, ih [c]]
            simp

theorem replaceOnto_skip (pattern replacement cs rest : List Char) :
    replaceOnto pattern replacement [] cs.length (cs ++ rest) =
      replaceOnto pattern replacement [] 0 rest := by
  induction cs with
  | nil => rfl
  | cons c others ih =>
      rw [List.length_cons, List.cons_append, replaceOnto]
      exact ih

theorem replaceAll_nil {pattern : List Char} (h : pattern ≠ []) (replacement : List Char) :
    replaceAll pattern replacement [] = [] := by
  cases pattern with
  | nil => exact absurd rfl h
  | cons first others => rfl

theorem replaceAll_pattern {pattern : List Char} (h : pattern ≠ [])
    (replacement rest : List Char) :
    replaceAll pattern replacement (pattern ++ rest) =
      replacement ++ replaceAll pattern replacement rest := by
  cases pattern with
  | nil => exact absurd rfl h
  | cons first others =>
      have hfront : (first :: others).isPrefixOf (first :: (others ++ rest)) = true := by
        rw [List.isPrefixOf_iff_prefix]
        exact ⟨rest, rfl⟩
      have hskip := replaceOnto_skip (first :: others) replacement others rest
      simp only [replaceAll, List.isEmpty_cons, Bool.false_eq_true, if_false, List.cons_append]
      rw [replaceOnto, if_pos hfront, replaceOnto_eq_append, List.length_cons,
        Nat.add_sub_cancel, hskip]
      simp

theorem replaceAll_cons {pattern : List Char} {c : Char} {rest : List Char}
    (h : ¬ pattern <+: c :: rest) (replacement : List Char) :
    replaceAll pattern replacement (c :: rest) = c :: replaceAll pattern replacement rest := by
  cases pattern with
  | nil => exact absurd (List.nil_prefix) h
  | cons first others =>
      have hfront : ¬ (first :: others).isPrefixOf (c :: rest) = true := by
        rw [List.isPrefixOf_iff_prefix]
        exact h
      simp only [replaceAll, List.isEmpty_cons, Bool.false_eq_true, if_false]
      rw [replaceOnto, if_neg hfront, replaceOnto_eq_append]
      rfl

/-- Text without the first character of the pattern stays. -/
theorem replaceAll_append_of_not_mem {first : Char} {cs : List Char} (h : first ∉ cs)
    (others replacement rest : List Char) :
    replaceAll (first :: others) replacement (cs ++ rest) =
      cs ++ replaceAll (first :: others) replacement rest := by
  induction cs with
  | nil => rfl
  | cons c more ih =>
      have hhead : ¬ first :: others <+: c :: (more ++ rest) := by
        rw [List.cons_prefix_cons]
        rintro ⟨rfl, _⟩
        exact h List.mem_cons_self
      rw [List.cons_append, replaceAll_cons hhead, ih fun hmem => h (List.mem_cons_of_mem c hmem)]
      rfl

/-- Text in which the pattern does not occur stays. -/
theorem replaceAll_of_not_infix {pattern cs : List Char} (h : ¬ pattern <:+: cs)
    (replacement : List Char) : replaceAll pattern replacement cs = cs := by
  induction cs with
  | nil =>
      apply replaceAll_nil
      rintro rfl
      exact h List.nil_infix
  | cons c rest ih =>
      rw [replaceAll_cons fun hprefix => h hprefix.isInfix,
        ih fun hinfix => h (List.infix_cons hinfix)]

end Text
end ComponentMarkup
