import Mathlib
import ComponentMarkup.Json.Lexeme
import ComponentMarkup.Proofs.Number.Numerals
import ComponentMarkup.Proofs.Text.Spans

/-!
# Whole numbers in JSON

A numeral without point and exponent that fits in 64 bits means a whole number, and a
whole number is written in digits that are read back.
-/

namespace ComponentMarkup
namespace Json

/-- The value of the digits before the point. -/
def Numeral.wholeValue (n : Numeral) : Nat :=
  ComponentMarkup.Numeral.digitsValue n.whole

/-- Whether a numeral has no point and no exponent and fits in 64 bits.  Zero has no
sign. -/
structure Numeral.IsPlain (n : Numeral) : Prop where
  noFraction : n.fraction = []
  noExponent : n.exponent = none
  fits : if n.negative then 0 < n.wholeValue ∧ n.wholeValue ≤ 2 ^ 63 else n.wholeValue < 2 ^ 64

namespace Number

/-- Whether a number is whole and fits in 64 bits. -/
def IsWhole : Number → Prop
  | .natural value => value < 2 ^ 64
  | .negative value => 0 < value ∧ value ≤ 2 ^ 63
  | .binary _ => False

/-! ## Numerals that are read -/

theorem absorb_of_lt {start : Nat} {digits : List Char}
    (h : digits.foldl (fun value digit => 10 * value + ComponentMarkup.Numeral.digitValue digit)
      start < Binary.wordCount) :
    absorb start digits =
      (digits.foldl (fun value digit => 10 * value + ComponentMarkup.Numeral.digitValue digit)
        start, []) := by
  induction digits generalizing start with
  | nil => rfl
  | cons digit rest ih =>
      have hstep := Nat.lt_of_le_of_lt (ComponentMarkup.Numeral.le_foldl_digitValue rest _) h
      rw [absorb, if_pos hstep]
      exact ih h

/-- Digits that fit in 64 bits are taken in whole. -/
theorem ofNumeral?_digits (negative : Bool) {digits : List Char}
    (h : ComponentMarkup.Numeral.digitsValue digits < Binary.wordCount) :
    ofNumeral? ⟨negative, digits, [], none⟩ =
      let value := ComponentMarkup.Numeral.digitsValue digits
      if negative = false then some (.natural value)
      else if value = 0 ∨ Binary.signBit < value then some (.binary (-(Binary.ofNat value)))
      else some (.negative value) := by
  have habsorb : absorb 0 digits = (ComponentMarkup.Numeral.digitsValue digits, []) :=
    absorb_of_lt h
  rw [ofNumeral?]
  dsimp only
  rw [habsorb]
  rfl

/-- A plain numeral means a whole number. -/
theorem isWhole_of_ofNumeral? {n : Numeral} {number : Number} (h : n.IsPlain)
    (hread : ofNumeral? n = some number) : number.IsWhole := by
  rcases n with ⟨negative, digits, fraction, exponent⟩
  rcases h with ⟨rfl, rfl, hfits⟩
  cases negative with
  | false =>
      have hvalue : ComponentMarkup.Numeral.digitsValue digits < 2 ^ 64 := hfits
      rw [ofNumeral?_digits false hvalue] at hread
      cases hread
      exact hvalue
  | true =>
      have hbounds : 0 < ComponentMarkup.Numeral.digitsValue digits ∧
          ComponentMarkup.Numeral.digitsValue digits ≤ 2 ^ 63 := hfits
      rcases hbounds with ⟨hpos, hle⟩
      have hkept : ¬ (ComponentMarkup.Numeral.digitsValue digits = 0 ∨
          Binary.signBit < ComponentMarkup.Numeral.digitsValue digits) := by
        unfold Binary.signBit
        omega
      rw [ofNumeral?_digits true (by unfold Binary.wordCount; omega)] at hread
      dsimp only at hread
      rw [if_neg Bool.noConfusion, if_neg hkept] at hread
      cases hread
      exact ⟨hpos, hle⟩

/-! ## Numbers that are written -/

open ComponentMarkup.Numeral (digitsValue_toDigits toDigits_of_pos)

/-- The numeral by which a whole number is written. -/
def numeral : Number → Numeral
  | .natural value => ⟨false, Nat.toDigits 10 value, [], none⟩
  | .negative value => ⟨true, Nat.toDigits 10 value, [], none⟩
  | .binary _ => ⟨false, [], [], none⟩

theorem ofNumeral?_numeral {number : Number} (h : number.IsWhole) :
    ofNumeral? number.numeral = some number := by
  cases number with
  | natural value =>
      have hvalue : value < Binary.wordCount := h
      rw [numeral, ofNumeral?_digits false (by rw [digitsValue_toDigits]; exact hvalue),
        digitsValue_toDigits]
      rfl
  | negative value =>
      rcases h with ⟨hpos, hle⟩
      have hkept : ¬ (value = 0 ∨ Binary.signBit < value) := by
        unfold Binary.signBit
        omega
      rw [numeral, ofNumeral?_digits true
        (by rw [digitsValue_toDigits]; unfold Binary.wordCount; omega), digitsValue_toDigits]
      dsimp only
      rw [if_neg Bool.noConfusion, if_neg hkept]
  | binary value => cases h

theorem scanWhole_toDigits (n : Nat) {rest : List Char}
    (h : ∀ c ∈ rest.head?, c.isDigit = false) :
    Lexeme.scanWhole (Nat.toDigits 10 n ++ rest) = some (Nat.toDigits 10 n, rest) := by
  have hdigits : ∀ c ∈ Nat.toDigits 10 n, c.isDigit = true :=
    fun _ hmem => Nat.isDigit_of_mem_toDigits (by decide) (by decide) hmem
  unfold Lexeme.scanWhole
  dsimp only
  rw [Text.takeWhile_append_stopped hdigits h, Text.dropWhile_append_stopped hdigits h]
  rcases Nat.eq_zero_or_pos n with rfl | hpos
  · rfl
  · rcases toDigits_of_pos hpos with ⟨c, others, hcons, hc⟩
    rw [hcons]
    split
    · rename_i hnil
      cases hnil
    · rfl
    · rename_i hzero
      cases hzero
      exact absurd rfl hc
    · rfl

/-! ## Numbers that are read back -/

/-- Whether a character can go on with a number. -/
def goesOn (c : Char) : Bool :=
  c.isDigit || c == '.' || c == 'e' || c == 'E'

/-- Whether a number that stands in front of some characters ends there. -/
def EndsBefore (rest : List Char) : Prop :=
  ∀ c ∈ rest.head?, goesOn c = false

theorem endsBefore_cons {c : Char} (h : goesOn c = false) (rest : List Char) :
    EndsBefore (c :: rest) := by
  intro d hd
  cases hd
  exact h

theorem endsBefore_nil : EndsBefore [] := by
  intro d hd
  cases hd

theorem scanNumber_toDigits (negative : Bool) (n : Nat) {rest : List Char} (h : EndsBefore rest) :
    Lexeme.scanNumber negative (Nat.toDigits 10 n ++ rest) =
      some (⟨negative, Nat.toDigits 10 n, [], none⟩, rest) := by
  have hdigit : ∀ c ∈ rest.head?, c.isDigit = false := by
    intro c hc
    have hends := h c hc
    simp only [goesOn, Bool.or_eq_false_iff] at hends
    exact hends.1.1.1
  have hfraction : Lexeme.scanFraction rest = some ([], rest) := by
    unfold Lexeme.scanFraction
    split
    · cases h '.' rfl
    · rfl
  have hexponent : Lexeme.scanExponent rest = some (none, rest) := by
    unfold Lexeme.scanExponent
    split
    · rfl
    · rename_i mark afterMark
      have hmark : ¬ (mark = 'e' ∨ mark = 'E') := by
        intro hmark
        rcases hmark with rfl | rfl
        · cases h 'e' rfl
        · cases h 'E' rfl
      rw [if_neg hmark]
  unfold Lexeme.scanNumber
  rw [scanWhole_toDigits n hdigit]
  simp only [Option.bind_eq_bind, Option.bind_some, hfraction, hexponent]
  rfl

/-- A digit starts a number and nothing else. -/
theorem scan?_of_isDigit {c : Char} (h : c.isDigit = true) (rest : List Char) :
    Lexeme.scan? c rest =
      (Lexeme.scanNumber false (c :: rest)).map fun (n, after) => (.number n, after) := by
  unfold Lexeme.scan?
  split
  case h_12 => rfl
  all_goals cases h

theorem isBlank_of_isDigit {c : Char} (h : c.isDigit = true) : Lexeme.isBlank c = false := by
  rw [Bool.eq_false_iff]
  intro hblank
  simp only [Lexeme.isBlank, Bool.or_eq_true, beq_iff_eq] at hblank
  rcases hblank with ((rfl | rfl) | rfl) | rfl <;> cases h

/-- A whole number is read back from its digits, where no more digits follow. -/
theorem scan?_render {number : Number} (h : number.IsWhole) :
    ∃ c cs, number.render.toList = c :: cs ∧ Lexeme.isBlank c = false ∧
      ∀ rest, EndsBefore rest →
        Lexeme.scan? c (cs ++ rest) = some (.number number.numeral, rest) := by
  cases number with
  | natural value =>
      cases hdigits : Nat.toDigits 10 value with
      | nil => exact absurd hdigits Nat.toDigits_ne_nil
      | cons c cs =>
          have hc : c.isDigit = true :=
            Nat.isDigit_of_mem_toDigits (by decide) (by decide) (hdigits ▸ List.mem_cons_self)
          have hrender : (Number.natural value).render.toList = c :: cs := by
            rw [render, Nat.toString_eq_ofList_toDigits, String.toList_ofList, hdigits]
          have hscan : ∀ rest, EndsBefore rest → Lexeme.scan? c (cs ++ rest) =
              some (.number (Number.natural value).numeral, rest) := by
            intro rest hrest
            have hnumber := scanNumber_toDigits false value hrest
            rw [hdigits] at hnumber
            rw [scan?_of_isDigit hc, ← List.cons_append, hnumber, numeral, hdigits]
            rfl
          exact ⟨c, cs, hrender, isBlank_of_isDigit hc, hscan⟩
  | negative value =>
      have hrender : (Number.negative value).render.toList = '-' :: Nat.toDigits 10 value := by
        simp [render]
      have hscan : ∀ rest, EndsBefore rest → Lexeme.scan? '-' (Nat.toDigits 10 value ++ rest) =
          some (.number (Number.negative value).numeral, rest) := by
        intro rest hrest
        rw [Lexeme.scan?, scanNumber_toDigits true value hrest]
        rfl
      exact ⟨'-', _, hrender, rfl, hscan⟩
  | binary value => cases h

end Number
end Json
end ComponentMarkup
