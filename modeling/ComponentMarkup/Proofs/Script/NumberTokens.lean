import ComponentMarkup.Proofs.Script.Hexadecimals

/-!
# Numbers in code

Where a number is read in code, the characters that it takes can be read as a text as well, from
end to end.  The text denotes the number that is read, and where there is none the text is not a
number either.
-/

namespace ComponentMarkup
namespace Script

open Binary

/-! ## Values that are numbers -/

theorem isNaN_value (n : Numeral) : n.value.isNaN = false := by
  apply isNaN_ofCode
  unfold Numeral.code Numeral.nearestDecimal
  dsimp only
  split
  · exact Nat.zero_le infinity
  · split
    · exact Nat.le_refl infinity
    · split
      · exact Nat.zero_le infinity
      · exact (Numeral.isNearest_nearest_ten _ _).le_infinity

theorem isNaN_of_hexValue? {digits : List Char} {x : Float} (h : hexValue? digits = some x) :
    x.isNaN = false := by
  unfold hexValue? at h
  split at h
  · cases h
  · split at h
    · cases h
      exact isNaN_ofCode false (isNearest_nearest _ Nat.one_pos).le_infinity
    · cases h

/-! ## Both ways of reading -/

/-- Whether a number is read, or a malformed token where it is not a number. -/
def ReadsAs (reading : Reading) (x : Float) : Prop :=
  (x.isNaN = false → reading = .ok (.number x)) ∧
    (x.isNaN = true ↔ ∃ cause, reading = .error cause)

theorem readsAs_number {x : Float} (h : x.isNaN = false) : ReadsAs (.ok (.number x)) x := by
  refine ⟨fun _ => rfl, fun hnan => ?_, ?_⟩
  · rw [h] at hnan
    cases hnan
  · rintro ⟨_, ⟨⟩⟩

theorem readsAs_error (cause : Malformed) : ReadsAs (.error cause) notANumber := by
  refine ⟨fun hnumber => ?_, fun _ => ⟨cause, rfl⟩, fun _ => isNaN_notANumber⟩
  rw [isNaN_notANumber] at hnumber
  cases hnumber

/-- A text without blanks, signs and marks denotes its numeral. -/
theorem numberOfText_unsigned {c : Char} {more : List Char}
    (hchars : ∀ d ∈ c :: more, Text.isBlank d = false ∧ d ≠ 'x' ∧ d ≠ 'X')
    (hfirst : c ≠ '+' ∧ c ≠ '-' ∧ c ≠ 'I') :
    numberOfText (String.ofList (c :: more)) =
      match Numeral.read? (c :: more) with
      | some n => n.value
      | none => notANumber := by
  obtain ⟨hplus, hminus, hword⟩ := hfirst
  have hsign : Numeral.scanSign (c :: more) = (false, c :: more) := by
    unfold Numeral.scanSign
    split
    · rename_i hcs
      exact absurd (List.cons.inj hcs).1 hplus
    · rename_i hcs
      exact absurd (List.cons.inj hcs).1 hminus
    · rfl
  have hnot : c :: more ≠ "Infinity".toList := fun hcs => hword (List.cons.inj hcs).1
  rw [numberOfText, String.toList_ofList, trim_of_noBlank fun d hd => (hchars d hd).1]
  dsimp only
  rw [afterHexMark?_of_noMark fun d hd => (hchars d hd).2, hsign]
  dsimp only
  rw [if_neg hnot]
  rfl

section Taken

variable {c : Char} {rest : List Char}

theorem eq_of_afterHexMark? {cs digits : List Char} (h : afterHexMark? cs = some digits) :
    ∃ mark, (mark = 'x' ∨ mark = 'X') ∧ cs = '0' :: mark :: digits := by
  unfold afterHexMark? at h
  split at h
  · cases h
    exact ⟨'x', .inl rfl, rfl⟩
  · cases h
    exact ⟨'X', .inr rfl, rfl⟩
  · cases h

theorem readNumber_marked {mark : Char} (hmark : mark = 'x' ∨ mark = 'X') (cs : List Char) :
    let w := '0' :: mark :: cs.takeWhile Text.Hexadecimal.isDigit
    (readNumber ('0' :: mark :: cs)).2 = w.length ∧
      ReadsAs (readNumber ('0' :: mark :: cs)).1 (numberOfText (String.ofList w)) := by
  have hdigits : ∀ d ∈ cs.takeWhile Text.Hexadecimal.isDigit, Text.Hexadecimal.isDigit d = true :=
    fun d hd => List.mem_takeWhile_imp hd
  dsimp only
  rw [numberOfText_mark hmark hdigits, readNumber, afterHexMark?_mark hmark]
  dsimp only
  rw [readHexNumber]
  cases hvalue : hexValue? (cs.takeWhile Text.Hexadecimal.isDigit) with
  | some x => exact ⟨rfl, readsAs_number (isNaN_of_hexValue? hvalue)⟩
  | none => exact ⟨rfl, readsAs_error _⟩

theorem startsNumber_ne (h : startsNumber c rest = true) :
    c ≠ '+' ∧ c ≠ '-' ∧ c ≠ 'I' ∧ startsWord c = false := by
  by_cases hdigit : c.isDigit = true
  · exact of_isDigit (P := fun c => c ≠ '+' ∧ c ≠ '-' ∧ c ≠ 'I' ∧ startsWord c = false)
      (by decide) hdigit
  · have hpoint : c = '.' ∧ rest.head?.any Char.isDigit = true := by
      simpa [startsNumber, hdigit] using h
    rw [hpoint.1]
    decide

theorem readToken_of_startsNumber (h : startsNumber c rest = true) :
    readToken c rest = readNumber (c :: rest) := by
  obtain ⟨_, _, _, hword⟩ := startsNumber_ne h
  rw [readToken, hword, if_neg Bool.false_ne_true, if_pos h]

/-- A decimal number takes the character that it starts with. -/
theorem exists_cons_decimalPart (h : startsNumber c rest = true) :
    ∃ more, decimalPart (c :: rest) = c :: more := by
  have hpos := length_decimalPart_pos h
  obtain ⟨behind, hsplit⟩ := isPrefix_decimalPart (c :: rest)
  cases htaken : decimalPart (c :: rest) with
  | nil =>
      rw [htaken] at hpos
      cases hpos
  | cons d more =>
      rw [htaken] at hsplit
      obtain ⟨rfl, _⟩ := List.cons.inj hsplit
      exact ⟨more, rfl⟩

theorem readNumber_decimal (h : startsNumber c rest = true)
    (hmark : afterHexMark? (c :: rest) = none) :
    let w := decimalPart (c :: rest)
    (readNumber (c :: rest)).2 = w.length ∧
      ReadsAs (readNumber (c :: rest)).1 (numberOfText (String.ofList w)) := by
  obtain ⟨hplus, hminus, hword, _⟩ := startsNumber_ne h
  have hchars : ∀ d ∈ decimalPart (c :: rest), Text.isBlank d = false ∧ d ≠ 'x' ∧ d ≠ 'X' :=
    forall_mem_decimalPart (P := fun d => Text.isBlank d = false ∧ d ≠ 'x' ∧ d ≠ 'X')
      (by decide) (by decide) _
  obtain ⟨more, htaken⟩ := exists_cons_decimalPart h
  rw [readNumber, hmark]
  dsimp only
  rw [htaken] at hchars ⊢
  rw [numberOfText_unsigned hchars ⟨hplus, hminus, hword⟩]
  cases hread : Numeral.read? (c :: more) with
  | some n => exact ⟨rfl, readsAs_number (isNaN_value n)⟩
  | none => exact ⟨rfl, readsAs_error _⟩

/-- A number is read of the characters at the front that it takes. -/
theorem exists_taken_of_startsNumber (h : startsNumber c rest = true) :
    ∃ w behind, c :: rest = w ++ behind ∧ (readToken c rest).2 = w.length ∧
      ReadsAs (readToken c rest).1 (numberOfText (String.ofList w)) := by
  rw [readToken_of_startsNumber h]
  cases hmark : afterHexMark? (c :: rest) with
  | none =>
      obtain ⟨behind, hsplit⟩ := isPrefix_decimalPart (c :: rest)
      exact ⟨_, behind, hsplit.symm, readNumber_decimal h hmark⟩
  | some cs =>
      obtain ⟨mark, isMark, hcs⟩ := eq_of_afterHexMark? hmark
      refine ⟨_, cs.dropWhile Text.Hexadecimal.isDigit, ?_, hcs ▸ readNumber_marked isMark cs⟩
      rw [hcs, List.cons_append, List.cons_append, List.takeWhile_append_dropWhile]

end Taken

/-- At every place of any code at which a number is read, the token is the number that the
characters taken denote as a text, and it is malformed exactly where that text is not a number. -/
theorem next?_number (s : Source) {c : Char} {rest : List Char}
    (hahead : s.skipGap.ahead = c :: rest) (h : startsNumber c rest = true) :
    ∃ l after w, s.next? = some (l, after) ∧ s.skipGap.ahead = w ++ after.ahead ∧
      ((numberOfText (String.ofList w)).isNaN = false →
        l.reading = .ok (.number (numberOfText (String.ofList w)))) ∧
      ((numberOfText (String.ofList w)).isNaN = true ↔ ∃ cause, l.reading = .error cause) := by
  obtain ⟨w, behind, hsplit, hsize, hreads⟩ := exists_taken_of_startsNumber h
  refine ⟨⟨(readToken c rest).1, s.skipGap.offset + (readToken c rest).2⟩,
    s.skipGap.skip (readToken c rest).2, w, ?_, ?_, hreads⟩
  · rw [Source.next?, Source.readHere?, hahead]
  · rw [Source.skip, hahead, hsize, hsplit, List.drop_left]

/-- The mark of an exponent without digits is taken, here in front of a name. -/
theorem next?_number_openExponent :
    (Source.ofText "\t.5e+x").skipGap.ahead = '.' :: "5e+x".toList ∧
      startsNumber '.' "5e+x".toList = true ∧
      ∃ l after w, (Source.ofText "\t.5e+x").next? = some (l, after) ∧
        (Source.ofText "\t.5e+x").skipGap.ahead = w ++ after.ahead ∧
        ((numberOfText (String.ofList w)).isNaN = false →
          l.reading = .ok (.number (numberOfText (String.ofList w)))) ∧
        ((numberOfText (String.ofList w)).isNaN = true ↔ ∃ cause, l.reading = .error cause) := by
  have hahead : (Source.ofText "\t.5e+x").skipGap.ahead = '.' :: "5e+x".toList := rfl
  have hstarts : startsNumber '.' "5e+x".toList = true := rfl
  exact ⟨hahead, hstarts, next?_number _ hahead hstarts⟩

end Script
end ComponentMarkup
