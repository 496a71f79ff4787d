import ComponentMarkup.Proofs.Script.NumberTexts

/-!
# Numbers at the front of a text

Behind blanks, the number at the front of a text is the one that the longest prefix with the
form of a number denotes from end to end.
-/

namespace ComponentMarkup
namespace Script

open Numeral Binary

/-- The word for infinity or a numeral. -/
inductive IsUnsigned : List Char → Prop where
  | infinity : IsUnsigned "Infinity".toList
  | numeral {n w} (spells : Spells n w) : IsUnsigned w

/-- The form of a number: what has no sign, behind a sign or none. -/
inductive IsNumeric : List Char → Prop where
  | mk {negative sign w} (writesSign : WritesSign negative sign) (isUnsigned : IsUnsigned w) :
      IsNumeric (sign ++ w)

/-- Whether a text is the longest of its form at the front of another one. -/
structure IsLongestPrefix (Form : List Char → Prop) (w cs : List Char) : Prop where
  isPrefix : w <+: cs
  form : Form w
  longest : ∀ v, v <+: cs → Form v → v.length ≤ w.length

/-- A number at the front of a text has the sign that is read, and its other part stands behind
the sign. -/
theorem exists_unsigned {v : List Char} (h : IsNumeric v) (more : List Char) :
    ∃ w, IsUnsigned w ∧ (scanSign (v ++ more)).2 = w ++ more := by
  cases h with
  | @mk negative sign w writesSign isUnsigned =>
      refine ⟨w, isUnsigned, ?_⟩
      rw [List.append_assoc]
      cases isUnsigned with
      | infinity =>
          have hword : ∀ c ∈ ("Infinity".toList ++ more).head?, c ≠ '+' ∧ c ≠ '-' := by
            rintro _ ⟨⟩
            decide
          rw [scanSign_append writesSign hword]
      | numeral spells => rw [scanSign_spells_append writesSign spells more]

/-- Where nothing longer without a sign stands behind the sign that is read, a number without a
sign is behind it the longest number. -/
theorem isLongestPrefix_of_unsigned {cs w rest : List Char} (hw : IsUnsigned w)
    (hcs : (scanSign cs).2 = w ++ rest)
    (hleast : ∀ v more, IsUnsigned v → w ++ rest = v ++ more → rest.length ≤ more.length) :
    ∃ sign, WritesSign (scanSign cs).1 sign ∧ IsLongestPrefix IsNumeric (sign ++ w) cs := by
  obtain ⟨sign, writesSign, hsign⟩ := scanSign_spells cs
  rw [hcs, ← List.append_assoc] at hsign
  refine ⟨sign, writesSign, ⟨rest, hsign.symm⟩, .mk writesSign hw, ?_⟩
  rintro v ⟨more, hmore⟩ hv
  obtain ⟨u, hu, hbehind⟩ := exists_unsigned hv more
  rw [hmore, hcs] at hbehind
  have hlength := congrArg List.length (hmore.trans hsign)
  have hle := hleast u more hu hbehind
  simp only [List.length_append] at hlength ⊢
  omega

theorem not_infinity_append_of_spells {n : Numeral} {w rest more : List Char} (h : Spells n w) :
    "Infinity".toList ++ rest ≠ w ++ more :=
  fun hsame => not_infinity_of_spells h more ⟨rest, hsame⟩

/-! ## What stands behind the sign -/

section Behind

variable {cs : List Char}

/-- The word for infinity is the longest number where it stands. -/
theorem longest_infinity {rest : List Char} (h : (scanSign cs).2 = "Infinity".toList ++ rest) :
    ∃ sign, WritesSign (scanSign cs).1 sign ∧
      IsLongestPrefix IsNumeric (sign ++ "Infinity".toList) cs := by
  refine isLongestPrefix_of_unsigned .infinity h fun v more hv hsame => ?_
  cases hv with
  | infinity => exact (congrArg List.length (List.append_cancel_left hsame)).le
  | numeral spells => exact absurd hsame (not_infinity_append_of_spells spells)

/-- Where the word does not stand, the numeral that is read is the longest number. -/
theorem longest_numeral {n : Numeral} {rest : List Char}
    (hword : ¬ "Infinity".toList <+: (scanSign cs).2)
    (h : scan (scanSign cs).2 = some (n, rest)) :
    ∃ sign w, WritesSign (scanSign cs).1 sign ∧ Spells n w ∧
      IsLongestPrefix IsNumeric (sign ++ w) cs := by
  obtain ⟨w, spells, hw⟩ := spells_of_scan h
  have hleast : ∀ v more, IsUnsigned v → w ++ rest = v ++ more → rest.length ≤ more.length := by
    intro v more hv hsame
    rw [hw, hsame] at h hword
    cases hv with
    | infinity => exact absurd (List.prefix_append _ more) hword
    | numeral spellsOther =>
        obtain ⟨_, _, hread, hlength⟩ := scan_spells_append spellsOther more
        rw [h] at hread
        cases hread
        exact hlength
  obtain ⟨sign, writesSign, hlongest⟩ := isLongestPrefix_of_unsigned (.numeral spells) hw hleast
  exact ⟨sign, w, writesSign, spells, hlongest⟩

/-- Where neither the word nor a numeral stands, there is no number at the front. -/
theorem not_isNumeric_of_scan (hword : ¬ "Infinity".toList <+: (scanSign cs).2)
    (h : scan (scanSign cs).2 = none) {w : List Char} (hw : w <+: cs) : ¬ IsNumeric w := by
  intro hnumeric
  obtain ⟨more, rfl⟩ := hw
  obtain ⟨u, hu, hbehind⟩ := exists_unsigned hnumeric more
  rw [hbehind] at h hword
  cases hu with
  | infinity => exact hword (List.prefix_append _ more)
  | numeral spells =>
      obtain ⟨_, _, hread, _⟩ := scan_spells_append spells more
      rw [h] at hread
      cases hread

end Behind

/-- The number at the front of a text is the one that the longest prefix of the form denotes, and
without such a prefix there is none. -/
theorem numberOfFront_eq_longest (s : String) :
    (∃ w, IsLongestPrefix IsNumeric w (Text.trimStart s.toList) ∧
      numberOfFront s = numberOfText (String.ofList w)) ∨
    (∀ w, w <+: Text.trimStart s.toList → ¬ IsNumeric w) ∧ numberOfFront s = notANumber := by
  unfold numberOfFront
  generalize Text.trimStart s.toList = cs
  dsimp only
  by_cases hword : "Infinity".toList <+: (scanSign cs).2
  · rw [if_pos (List.isPrefixOf_iff_prefix.mpr hword)]
    obtain ⟨rest, hrest⟩ := hword
    obtain ⟨sign, writesSign, hlongest⟩ := longest_infinity hrest.symm
    exact .inl ⟨_, hlongest, (numberOfText_infinity writesSign).symm⟩
  · rw [if_neg fun hfront => hword (List.isPrefixOf_iff_prefix.mp hfront)]
    cases hscan : scan (scanSign cs).2 with
    | some read =>
        obtain ⟨sign, w, writesSign, spells, hlongest⟩ := longest_numeral hword hscan
        exact .inl ⟨_, hlongest, (numberOfText_of_spells writesSign spells).symm⟩
    | none => exact .inr ⟨fun w hw => not_isNumeric_of_scan hword hscan hw, rfl⟩

example : numberOfFront " -7e+x" = numberOfText "-7" := by
  rfl

end Script
end ComponentMarkup
