import Mathlib.Tactic.IntervalCases
import Mathlib.Tactic.Ring
import ComponentMarkup.Number.Numeral
import ComponentMarkup.Text.Hexadecimal

/-!
# Rows of digits

The value of a row of digits lies below the power of the base that the count of the digits is,
and not below the power before it unless the row starts with a zero.
-/

namespace ComponentMarkup

/-! ## Digits of any base -/

section Base

variable {base : Nat} {digitOf : Char → Nat}

/-- What is read before a row of digits is shifted by their count. -/
theorem foldl_digits_eq (digits : List Char) (start : Nat) :
    digits.foldl (fun value digit => base * value + digitOf digit) start =
      base ^ digits.length * start +
        digits.foldl (fun value digit => base * value + digitOf digit) 0 := by
  induction digits generalizing start with
  | nil => simp
  | cons digit rest ih =>
      rw [List.foldl_cons, List.foldl_cons, ih (base * start + digitOf digit),
        ih (base * 0 + digitOf digit), List.length_cons, pow_succ]
      ring

theorem foldl_digits_lt {digits : List Char}
    (h : ∀ c ∈ digits, digitOf c < base) :
    digits.foldl (fun value digit => base * value + digitOf digit) 0 < base ^ digits.length := by
  induction digits with
  | nil => simp
  | cons digit rest ih =>
      obtain ⟨hdigit, hrest⟩ := List.forall_mem_cons.mp h
      rw [List.foldl_cons, foldl_digits_eq, Nat.mul_zero, Nat.zero_add]
      calc base ^ rest.length * digitOf digit +
            rest.foldl (fun value digit => base * value + digitOf digit) 0
          < base ^ rest.length * digitOf digit + base ^ rest.length := by
            have hlt := ih hrest
            omega
        _ = base ^ rest.length * (digitOf digit + 1) := (Nat.mul_succ _ _).symm
        _ ≤ base ^ rest.length * base := Nat.mul_le_mul_left _ hdigit
        _ = base ^ (digit :: rest).length := (pow_succ base rest.length).symm

end Base

/-! ## Digits of base ten -/

namespace Numeral

theorem digitValue_lt {c : Char} (h : c.isDigit = true) : digitValue c < 10 := by
  have hlast : c.toNat ≤ 57 := (Char.isDigit_iff_toNat.mp h).2
  unfold digitValue
  omega

theorem digitValue_pos {c : Char} (h : c.isDigit = true) (hzero : c ≠ '0') :
    0 < digitValue c := by
  have hfirst : 48 ≤ c.toNat := (Char.isDigit_iff_toNat.mp h).1
  have hcode : c.toNat ≠ 48 := fun hcode => hzero (Char.toNat_inj.mp hcode)
  unfold digitValue
  omega

/-- Digits do not make a number smaller. -/
theorem le_foldl_digitValue (digits : List Char) (start : Nat) :
    start ≤ digits.foldl (fun value digit => 10 * value + digitValue digit) start := by
  rw [foldl_digits_eq]
  have hscaled : 1 * start ≤ 10 ^ digits.length * start :=
    Nat.mul_le_mul_right start (Nat.one_le_pow _ _ (by decide))
  omega

theorem digitsValue_append (digits more : List Char) :
    digitsValue (digits ++ more) = 10 ^ more.length * digitsValue digits + digitsValue more := by
  unfold digitsValue
  rw [List.foldl_append, foldl_digits_eq]

theorem digitsValue_lt {digits : List Char} (h : ∀ c ∈ digits, c.isDigit = true) :
    digitsValue digits < 10 ^ digits.length :=
  foldl_digits_lt fun c hc => digitValue_lt (h c hc)

theorem pow_le_digitsValue {c : Char} {rest : List Char} (h : c.isDigit = true)
    (hzero : c ≠ '0') : 10 ^ rest.length ≤ digitsValue (c :: rest) := by
  have hscaled : 10 ^ rest.length * 1 ≤ 10 ^ rest.length * digitValue c :=
    Nat.mul_le_mul_left _ (digitValue_pos h hzero)
  unfold digitsValue
  rw [List.foldl_cons, foldl_digits_eq, Nat.mul_zero, Nat.zero_add]
  omega

/-- Zeros in front do not count. -/
theorem digitsValue_dropWhile (digits : List Char) :
    digitsValue (digits.dropWhile (· == '0')) = digitsValue digits := by
  induction digits with
  | nil => rfl
  | cons c rest ih =>
      by_cases hzero : c = '0'
      · subst hzero
        exact ih
      · rw [List.dropWhile_cons_of_neg (by simpa using hzero)]

theorem digitsValue_replicate (count : Nat) : digitsValue (List.replicate count '0') = 0 := by
  induction count with
  | zero => rfl
  | succ count ih => exact ih

theorem digitsValue_toDigits (n : Nat) : digitsValue (Nat.toDigits 10 n) = n := by
  have hdigits := Nat.ofDigitChars_ten_toDigits (n := n)
  rw [Nat.ofDigitChars_eq_foldl] at hdigits
  exact hdigits

/-- Only zero starts with the digit zero. -/
theorem toDigits_of_pos {n : Nat} (h : 0 < n) :
    ∃ c rest, Nat.toDigits 10 n = c :: rest ∧ c ≠ '0' := by
  induction n using Nat.strongRecOn with
  | ind n ih =>
      rw [Nat.toDigits_eq_if (by decide)]
      split
      · rename_i hlt
        have hchar : n.digitChar ≠ '0' := by
          interval_cases n <;> decide
        exact ⟨n.digitChar, [], rfl, hchar⟩
      · have hdiv : 0 < n / 10 := by omega
        rcases ih (n / 10) (by omega) hdiv with ⟨c, rest, hdigits, hc⟩
        exact ⟨c, _, by rw [hdigits, List.cons_append], hc⟩

end Numeral

/-! ## Digits of base sixteen -/

namespace Text
namespace Hexadecimal

theorem digitValue_lt {c : Char} (h : isDigit c = true) : digitValue c < 16 := by
  have hcode : c.isDigit = true ∨ (97 ≤ c.toNat ∧ c.toNat ≤ 102) ∨
      65 ≤ c.toNat ∧ c.toNat ≤ 70 := by
    simp only [isDigit, Bool.or_eq_true, Bool.and_eq_true, decide_eq_true_eq] at h
    rw [or_assoc] at h
    exact h
  have hletter : 'a' ≤ c ↔ 97 ≤ c.toNat := Iff.rfl
  unfold digitValue
  split
  · rename_i hdecimal
    have hlast : c.toNat ≤ 57 := (Char.isDigit_iff_toNat.mp hdecimal).2
    omega
  · rename_i hnone
    have hcode := hcode.resolve_left hnone
    simp only [hletter]
    split <;> omega

theorem value_lt {digits : List Char} (h : ∀ c ∈ digits, isDigit c = true) :
    value digits < 16 ^ digits.length :=
  foldl_digits_lt fun c hc => digitValue_lt (h c hc)

end Hexadecimal
end Text
end ComponentMarkup
