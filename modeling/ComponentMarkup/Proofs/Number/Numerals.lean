import Mathlib.Data.List.TakeWhile
import ComponentMarkup.Proofs.Number.Digits
import ComponentMarkup.Proofs.Text.Spans

/-!
# Numerals that are written out

A numeral is written as its digits, the point with the digits behind it, and its exponent,
where the last two may be left out.
-/

namespace ComponentMarkup
namespace Numeral

/-- A row of digits that is not empty. -/
structure IsRow (digits : List Char) : Prop where
  ne_nil : digits ≠ []
  isDigit : ∀ c ∈ digits, c.isDigit = true

/-- How the digits behind the point are written.  Without digits there is no point. -/
inductive WritesFraction : List Char → List Char → Prop where
  | none : WritesFraction [] []
  | point {digits} (row : IsRow digits) : WritesFraction digits ('.' :: digits)

/-- How it is written whether an exponent is negative. -/
inductive WritesSign : Bool → List Char → Prop where
  | none : WritesSign false []
  | plus : WritesSign false ['+']
  | minus : WritesSign true ['-']

/-- The exponent of a row of digits behind a sign. -/
def signedExponent (negative : Bool) (digits : List Char) : Int :=
  if negative then -Int.ofNat (exponentValue digits) else Int.ofNat (exponentValue digits)

/-- How an exponent is written, if it is written at all. -/
inductive WritesExponent : Int → List Char → Prop where
  | none : WritesExponent 0 []
  | marked {mark negative sign digits} (isMark : mark = 'e' ∨ mark = 'E')
      (writesSign : WritesSign negative sign) (row : IsRow digits) :
      WritesExponent (signedExponent negative digits) (mark :: (sign ++ digits))

/-- How a numeral is written. -/
inductive Writes : Numeral → List Char → Prop where
  | mk {whole fraction exponent pointed marked} (row : IsRow whole)
      (writesFraction : WritesFraction fraction pointed)
      (writesExponent : WritesExponent exponent marked) :
      Writes ⟨whole, fraction, exponent⟩ (whole ++ (pointed ++ marked))

/-!
# What stands next
-/

theorem WritesFraction.forall_head? {P : Char → Prop} {fraction w : List Char}
    (h : WritesFraction fraction w) (hpoint : P '.') : ∀ c ∈ w.head?, P c := by
  cases h with
  | none => rintro _ ⟨⟩
  | point row =>
      rintro _ ⟨⟩
      exact hpoint

theorem WritesExponent.forall_head? {P : Char → Prop} {exponent : Int} {w : List Char}
    (h : WritesExponent exponent w) (hmark : P 'e' ∧ P 'E') : ∀ c ∈ w.head?, P c := by
  cases h with
  | none => rintro _ ⟨⟩
  | marked isMark writesSign row =>
      rintro _ ⟨⟩
      rcases isMark with rfl | rfl
      · exact hmark.1
      · exact hmark.2

theorem IsRow.exists_cons {digits : List Char} (h : IsRow digits) :
    ∃ c more, digits = c :: more ∧ c.isDigit = true := by
  obtain ⟨c, more, rfl⟩ := List.exists_cons_of_ne_nil h.ne_nil
  exact ⟨c, more, rfl, h.isDigit c List.mem_cons_self⟩

theorem IsRow.isEmpty_eq_false {digits : List Char} (h : IsRow digits) :
    digits.isEmpty = false := by
  obtain ⟨c, more, rfl, _⟩ := h.exists_cons
  rfl

/-!
# Exponents of many digits
-/

/-- The digits that do not count stand behind a number that is large without them. -/
theorem exponentValue_eq_or_large (digits : List Char) :
    exponentValue digits = digitsValue digits ∨
      0x10000 ≤ exponentValue digits ∧ 0x10000 ≤ digitsValue digits := by
  have hkept : ∀ digits : List Char, ∀ start, 0x10000 ≤ start →
      digits.foldl (fun value digit =>
        if value < 0x10000 then 10 * value + digitValue digit else value) start = start := by
    intro digits start hstart
    induction digits with
    | nil => rfl
    | cons digit rest ih => rw [List.foldl_cons, if_neg (Nat.not_lt.mpr hstart), ih]
  unfold exponentValue digitsValue
  generalize 0 = start
  induction digits generalizing start with
  | nil => exact .inl rfl
  | cons digit rest ih =>
      by_cases hstart : start < 0x10000
      · rw [List.foldl_cons, List.foldl_cons, if_pos hstart]
        exact ih _
      · have hlarge : 0x10000 ≤ start := Nat.not_lt.mp hstart
        rw [hkept _ start hlarge]
        exact .inr ⟨hlarge, Nat.le_trans hlarge (le_foldl_digitValue _ start)⟩

/-- Unless a numeral has tens of thousands of digits in front of its exponent, all the
digits of the exponent count. -/
theorem code_signedExponent {whole fraction : List Char} (negative : Bool)
    (digits : List Char) (h : whole.length + fraction.length ≤ 65000) :
    (Numeral.mk whole fraction (signedExponent negative digits)).code =
      (Numeral.mk whole fraction
        (if negative then -Int.ofNat (digitsValue digits)
          else Int.ofNat (digitsValue digits))).code := by
  rcases exponentValue_eq_or_large digits with hsame | ⟨hexponent, hdigits⟩
  · rw [signedExponent, hsame]
  · unfold code nearestDecimal signedExponent
    dsimp only
    generalize hsignificant : (whole ++ fraction).dropWhile (· == '0') = significant
    have hlength : significant.length ≤ 65000 := by
      have hle := (List.dropWhile_sublist (· == '0') (l := whole ++ fraction)).length_le
      rw [hsignificant, List.length_append] at hle
      omega
    split
    · rfl
    · cases negative with
      | false =>
          simp only [Bool.false_eq_true, if_false, Int.ofNat_eq_natCast]
          rw [if_pos (by omega), if_pos (by omega)]
      | true =>
          simp only [if_true, Int.ofNat_eq_natCast]
          rw [if_neg (by omega), if_pos (by omega), if_neg (by omega), if_pos (by omega)]

end Numeral

end ComponentMarkup
