import ComponentMarkup.Proofs.Script.NumberTexts

/-!
# Hexadecimal numbers in texts

Behind a mark, hexadecimal digits denote the number that is nearest to their value as long as
the value fits in 64 bits.  From there on the text as a whole is not a number, although the
digits at its front still are one.
-/

namespace ComponentMarkup
namespace Script

open Binary

/-! ## Digits that are accumulated -/

theorem isFinite_digit {c : Char} (h : Text.Hexadecimal.isDigit c = true) :
    IsFinite (ofNat (Text.Hexadecimal.digitValue c)) := by
  have hsmall : ∀ digit < 16, nearest digit 1 < infinity := by
    decide
  exact isFinite_ofCode false (hsmall _ (Text.Hexadecimal.digitValue_lt h))

theorem unpack_sixteen : ∃ s m e hm, (ofNat 16).toModel.unpack = .finite s m e hm :=
  ⟨.positive, 2 ^ 52, -48, by decide, rfl⟩

/-- Digits keep a number a number, however many there are. -/
theorem isNaN_foldl_digits {digits : List Char}
    (h : ∀ c ∈ digits, Text.Hexadecimal.isDigit c = true) {start : Float}
    (hstart : start.isNaN = false) :
    (digits.foldl (fun value digit =>
      value * ofNat 16 + ofNat (Text.Hexadecimal.digitValue digit)) start).isNaN = false := by
  induction digits generalizing start with
  | nil => exact hstart
  | cons digit rest ih =>
      obtain ⟨hdigit, hrest⟩ := List.forall_mem_cons.mp h
      exact ih hrest (isNaN_add (isNaN_mul hstart unpack_sixteen) (isFinite_digit hdigit))

/-! ## Texts with a mark -/

section Marked

variable {mark : Char} (hmark : mark = 'x' ∨ mark = 'X') {digits : List Char}
  (hdigits : ∀ c ∈ digits, Text.Hexadecimal.isDigit c = true)

include hmark

theorem afterHexMark?_mark : afterHexMark? ('0' :: mark :: digits) = some digits := by
  rcases hmark with rfl | rfl <;> rfl

include hdigits

theorem noBlank_hexadecimal : ∀ c ∈ '0' :: mark :: digits, Text.isBlank c = false := by
  have hnone : ∀ c, Text.Hexadecimal.isDigit c = true → Text.isBlank c = false := by
    intro c hdigit
    rw [Bool.eq_false_iff]
    intro hblank
    have hother : Text.Hexadecimal.isDigit c = false :=
      of_isBlank (P := fun c => Text.Hexadecimal.isDigit c = false) (by decide) hblank
    rw [hdigit] at hother
    cases hother
  have hmarkBlank : Text.isBlank mark = false := by
    rcases hmark with rfl | rfl <;> rfl
  exact List.forall_mem_cons.mpr
    ⟨rfl, List.forall_mem_cons.mpr ⟨hmarkBlank, fun c hc => hnone c (hdigits c hc)⟩⟩

theorem numberOfText_mark :
    numberOfText (String.ofList ('0' :: mark :: digits)) = (hexValue? digits).getD notANumber := by
  rw [numberOfText, String.toList_ofList, trim_of_noBlank (noBlank_hexadecimal hmark hdigits)]
  dsimp only
  rw [afterHexMark?_mark hmark]

theorem integerOfFront_mark (hsome : digits ≠ []) :
    integerOfFront (String.ofList ('0' :: mark :: digits)) =
      accumulateDigits (ofNat 16) digits := by
  have hblank := noBlank_hexadecimal hmark hdigits
  have htrim : Text.trimStart ('0' :: mark :: digits) = '0' :: mark :: digits :=
    Text.dropWhile_of_stopped fun c hc => hblank c (List.mem_of_mem_head? hc)
  have hsign : Numeral.scanSign ('0' :: mark :: digits) = (false, '0' :: mark :: digits) := rfl
  rw [integerOfFront, String.toList_ofList, htrim, hsign]
  dsimp only
  rw [afterHexMark?_mark hmark]
  dsimp only
  simp only [List.takeWhile_eq_self_iff.mpr hdigits, List.isEmpty_eq_false_iff.mpr hsome,
    Bool.false_eq_true, if_false]
  rfl

end Marked

/-- Hexadecimal digits behind a mark denote the nearest number exactly where their value fits in
64 bits, while the digits at the front of the text always denote a number. -/
theorem isNaN_numberOfText_iff {mark : Char} (hmark : mark = 'x' ∨ mark = 'X')
    {digits : List Char} (hsome : digits ≠ [])
    (hdigits : ∀ c ∈ digits, Text.Hexadecimal.isDigit c = true) :
    ((numberOfText (String.ofList ('0' :: mark :: digits))).isNaN = true ↔
      2 ^ 64 ≤ Text.Hexadecimal.value digits) ∧
    (Text.Hexadecimal.value digits < 2 ^ 64 →
      ∃ c, numberOfText (String.ofList ('0' :: mark :: digits)) = ofCode false c ∧
        IsNearest (Text.Hexadecimal.value digits) c) ∧
    (integerOfFront (String.ofList ('0' :: mark :: digits))).isNaN = false := by
  have hnear : IsNearest (Text.Hexadecimal.value digits / (1 : Nat))
      (nearest (Text.Hexadecimal.value digits) 1) := isNearest_nearest _ Nat.one_pos
  rw [Nat.cast_one, div_one] at hnear
  have hvalue : hexValue? digits =
      if Text.Hexadecimal.value digits < 2 ^ 64 then
        some (ofNat (Text.Hexadecimal.value digits)) else none := by
    rw [hexValue?, if_neg (by simpa [hsome] using hdigits)]
    rfl
  rw [numberOfText_mark hmark hdigits, hvalue]
  refine ⟨?_, ?_, ?_⟩
  · by_cases hfits : Text.Hexadecimal.value digits < 2 ^ 64
    · rw [if_pos hfits, Option.getD_some, ofNat, isNaN_ofCode false hnear.le_infinity]
      exact ⟨fun h => absurd h Bool.false_ne_true, fun h => absurd hfits (Nat.not_lt.mpr h)⟩
    · rw [if_neg hfits, Option.getD_none, isNaN_notANumber]
      exact ⟨fun _ => Nat.not_lt.mp hfits, fun _ => rfl⟩
  · intro hfits
    rw [if_pos hfits, Option.getD_some]
    exact ⟨_, rfl, hnear⟩
  · rw [integerOfFront_mark hmark hdigits hsome]
    exact isNaN_foldl_digits hdigits (isNaN_ofCode false (by decide))

theorem isNaN_numberOfText_iff_byte :
    (numberOfText "0xff").isNaN = false ∧
      (∃ c, numberOfText "0xff" = ofCode false c ∧ IsNearest 255 c) ∧
      (integerOfFront "0xff").isNaN = false := by
  have hdigits : ∀ c ∈ ['f', 'f'], Text.Hexadecimal.isDigit c = true :=
    List.all_eq_true.mp (by decide)
  obtain ⟨hmissing, hnear, hfront⟩ :=
    isNaN_numberOfText_iff (.inl rfl) (List.cons_ne_nil 'f' ['f']) hdigits
  have hvalue : Text.Hexadecimal.value ['f', 'f'] = 255 := rfl
  rw [hvalue] at hmissing hnear
  refine ⟨Bool.eq_false_iff.mpr fun h => ?_, hnear (by norm_num), hfront⟩
  exact absurd (hmissing.mp h) (by norm_num)

/-- Sixteen zeros behind the one are the first number of too many bits. -/
theorem isNaN_numberOfText_wide :
    (numberOfText "0x10000000000000000").isNaN = true ∧
      (integerOfFront "0x10000000000000000").isNaN = false := by
  decide +kernel

end Script
end ComponentMarkup
