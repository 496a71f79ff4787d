import ComponentMarkup.Number.Layout
import ComponentMarkup.Proofs.Number.Numerals
import ComponentMarkup.Proofs.Number.Shortest
import ComponentMarkup.Proofs.Number.Values

/-!
# Numbers that are laid out

Whichever places of the digits a layout chooses, what it writes is a numeral that denotes the
number exactly.  So the text of a positive number is a numeral with the code of the number.
-/

namespace ComponentMarkup

/-! ## Rows of digits -/

namespace Numeral

theorem IsRow.append {digits more : List Char} (h : IsRow digits)
    (hmore : ∀ c ∈ more, c.isDigit = true) : IsRow (digits ++ more) :=
  ⟨List.append_ne_nil_of_left_ne_nil h.ne_nil more,
    fun c hc => (List.mem_append.mp hc).elim (h.isDigit c) (hmore c)⟩

theorem IsRow.append_left {digits more : List Char} (hmore : IsRow more)
    (h : ∀ c ∈ digits, c.isDigit = true) : IsRow (digits ++ more) :=
  ⟨List.append_ne_nil_of_right_ne_nil digits hmore.ne_nil,
    fun c hc => (List.mem_append.mp hc).elim (h c) (hmore.isDigit c)⟩

theorem isDigit_of_mem_replicate (count : Nat) :
    ∀ c ∈ List.replicate count '0', c.isDigit = true := by
  intro c hc
  rw [List.eq_of_mem_replicate hc]
  rfl

theorem isRow_toDigits (n : Nat) : IsRow (Nat.toDigits 10 n) :=
  ⟨Nat.toDigits_ne_nil, fun _ hc => Nat.isDigit_of_mem_toDigits (by decide) (by decide) hc⟩

theorem isRow_singleton {c : Char} (h : c.isDigit = true) : IsRow [c] :=
  ⟨List.cons_ne_nil c [], fun _ hd => (List.mem_singleton.mp hd) ▸ h⟩

theorem IsRow.take {digits : List Char} (h : IsRow digits) {count : Nat} (hcount : 0 < count) :
    IsRow (digits.take count) := by
  refine ⟨?_, fun c hc => h.isDigit c (List.mem_of_mem_take hc)⟩
  rw [Ne, List.take_eq_nil_iff, not_or]
  exact ⟨hcount.ne', h.ne_nil⟩

theorem IsRow.drop {digits : List Char} (h : IsRow digits) {count : Nat}
    (hcount : count < digits.length) : IsRow (digits.drop count) := by
  refine ⟨?_, fun c hc => h.isDigit c (List.mem_of_mem_drop hc)⟩
  rw [Ne, List.drop_eq_nil_iff]
  omega

theorem Writes.isDigit {n : Numeral} {w : List Char} (h : Writes n w) :
    ∀ c ∈ n.whole ++ n.fraction, c.isDigit = true := by
  cases h with
  | mk row writesFraction writesExponent =>
      refine (row.append ?_).isDigit
      cases writesFraction with
      | none => simp
      | point rowBehind => exact rowBehind.isDigit

/-! ## Numerals that are laid out -/

/-- A numeral without point and exponent. -/
theorem IsRow.writes {whole : List Char} (row : IsRow whole) : Writes ⟨whole, [], 0⟩ whole := by
  have hwrites := Writes.mk row .none .none
  rwa [List.append_nil, List.append_nil] at hwrites

/-- A numeral with a point and without exponent. -/
theorem IsRow.writes_point {whole fraction : List Char} (row : IsRow whole)
    (rowBehind : IsRow fraction) : Writes ⟨whole, fraction, 0⟩ (whole ++ '.' :: fraction) := by
  have hwrites := Writes.mk row (.point rowBehind) .none
  rwa [List.append_nil] at hwrites

/-- Only the digits and the place of the last one count. -/
theorem exact_eq {whole fraction digits : List Char} {exponent scale : Int}
    (hdigits : digitsValue (whole ++ fraction) = digitsValue digits)
    (hscale : exponent - fraction.length = scale) :
    exact ⟨whole, fraction, exponent⟩ = digitsValue digits * 10 ^ scale := by
  rw [exact, hdigits, hscale]

theorem digitsValue_zeros_append (count : Nat) (digits : List Char) :
    digitsValue (List.replicate count '0' ++ digits) = digitsValue digits := by
  rw [digitsValue_append, digitsValue_replicate, Nat.mul_zero, Nat.zero_add]

theorem digitsValue_append_zeros (digits : List Char) (count : Nat) :
    digitsValue (digits ++ List.replicate count '0') = 10 ^ count * digitsValue digits := by
  rw [digitsValue_append, digitsValue_replicate, List.length_replicate, Nat.add_zero]

end Numeral

namespace Binary

open Numeral

/-- The digits of a decimal numeral. -/
def Decimal.digits (d : Decimal) : List Char :=
  Nat.toDigits 10 d.coefficient

/-- The exponent of the first digit. -/
def Decimal.lead (d : Decimal) : Int :=
  d.scale + d.digits.length - 1

theorem Decimal.exact_eq_digits (d : Decimal) :
    d.exact = digitsValue d.digits * 10 ^ d.scale := by
  rw [Decimal.exact, Decimal.digits, digitsValue_toDigits]

variable (l : Layout) {d : Decimal}

theorem writesExponent_exponentText {e : Int} (h : e.natAbs < 0x10000) :
    WritesExponent e (l.exponentText e) := by
  have hvalue : exponentValue (Nat.toDigits 10 e.natAbs) = e.natAbs := by
    have hcases := exponentValue_eq_or_large (Nat.toDigits 10 e.natAbs)
    rw [digitsValue_toDigits] at hcases
    omega
  have hwrites : ∀ {negative sign}, WritesSign negative sign → (negative = true ↔ e < 0) →
      WritesExponent e ('e' :: (sign ++ Nat.toDigits 10 e.natAbs)) := by
    intro negative sign writesSign hnegative
    have hexponent : e = signedExponent negative (Nat.toDigits 10 e.natAbs) := by
      rw [signedExponent, hvalue]
      simp only [hnegative, Int.ofNat_eq_natCast]
      split <;> omega
    have hmarked := WritesExponent.marked (.inl rfl) writesSign (isRow_toDigits e.natAbs)
    rwa [← hexponent] at hmarked
  unfold Layout.exponentText
  dsimp only
  rw [List.cons_append]
  split
  · rename_i hnegative
    exact hwrites .minus (by simpa using hnegative)
  · rename_i hpositive
    split
    · exact hwrites .plus (by simpa using hpositive)
    · exact hwrites .none (by simpa using hpositive)

/-- Digits without a part behind the point. -/
theorem writes_zeros {digits : List Char} (row : IsRow digits) (zeros : Nat) :
    ∃ n, Writes n (digits ++ List.replicate zeros '0' ++
      (if l.keepsPoint then ['.', '0'] else [])) ∧
      n.exact = digitsValue digits * 10 ^ (zeros : Int) := by
  have hrow := row.append (isDigit_of_mem_replicate zeros)
  have hvalue : ((digitsValue (digits ++ List.replicate zeros '0') : Nat) : ℚ) =
      digitsValue digits * 10 ^ (zeros : Int) := by
    rw [digitsValue_append_zeros, zpow_natCast]
    push_cast
    ring
  rw [← hvalue]
  split
  · refine ⟨_, hrow.writes_point (isRow_singleton (c := '0') rfl), ?_⟩
    rw [exact, digitsValue_append _ ['0'], show digitsValue ['0'] = 0 from rfl]
    norm_num
    ring
  · rw [List.append_nil]
    refine ⟨_, hrow.writes, ?_⟩
    rw [exact, List.append_nil]
    norm_num

/-- Digits that are written out positionally. -/
theorem decimalText_writes_positional (h : l.positional d.lead = true) :
    ∃ n, Writes n (l.decimalText d) ∧ n.exact = d.exact := by
  have row := isRow_toDigits d.coefficient
  rw [Decimal.exact_eq_digits]
  unfold Layout.decimalText Decimal.lead Decimal.digits at *
  simp only [Int.ofNat_eq_natCast]
  rw [if_pos h]
  generalize Nat.toDigits 10 d.coefficient = digits at *
  split
  · rename_i hscale
    obtain ⟨zeros, hzeros⟩ := Int.eq_ofNat_of_zero_le hscale
    rw [hzeros, Int.toNat_natCast]
    exact writes_zeros l row zeros
  · rename_i hscale
    generalize hlead : d.scale + digits.length - 1 = lead
    split
    · have hfront := row.take (show 0 < (lead + 1).toNat by omega)
      have hbehind := row.drop (show (lead + 1).toNat < digits.length by omega)
      refine ⟨_, hfront.writes_point hbehind, exact_eq ?_ ?_⟩
      · rw [List.take_append_drop]
      · rw [List.length_drop]
        omega
    · have hbehind := row.append_left (isDigit_of_mem_replicate (-lead - 1).toNat)
      have hwrites := (isRow_singleton (c := '0') rfl).writes_point hbehind
      refine ⟨_, hwrites, exact_eq ?_ ?_⟩
      · exact digitsValue_zeros_append (_ + 1) digits
      · rw [List.length_append, List.length_replicate]
        omega

/-- Digits behind the first one and an exponent. -/
theorem decimalText_writes_scaled (h : l.positional d.lead = false)
    (hlead : d.lead.natAbs < 0x10000) :
    ∃ n, Writes n (l.decimalText d) ∧ n.exact = d.exact := by
  have row := isRow_toDigits d.coefficient
  have hexponent := writesExponent_exponentText l hlead
  rw [Decimal.exact_eq_digits]
  unfold Layout.decimalText Decimal.lead Decimal.digits at *
  simp only [Int.ofNat_eq_natCast]
  rw [h, if_neg Bool.false_ne_true]
  generalize Nat.toDigits 10 d.coefficient = digits at *
  split
  · exact absurd rfl row.ne_nil
  · rename_i digit
    have hwrites := Writes.mk row .none hexponent
    exact ⟨_, hwrites, exact_eq rfl (by simp)⟩
  · rename_i digit rest hrest
    have hdigit := isRow_singleton (row.isDigit digit List.mem_cons_self)
    have hbehind : IsRow rest := ⟨hrest, fun c hc => row.isDigit c (List.mem_cons_of_mem digit hc)⟩
    have hwrites := Writes.mk hdigit (.point hbehind) hexponent
    refine ⟨_, hwrites, exact_eq rfl ?_⟩
    rw [List.length_cons]
    push_cast
    ring

/-- Every layout writes a numeral that denotes the number exactly. -/
theorem decimalText_writes (hlead : d.lead.natAbs < 0x10000) :
    ∃ n, Writes n (l.decimalText d) ∧ n.exact = d.exact := by
  cases h : l.positional d.lead with
  | false => exact decimalText_writes_scaled l h hlead
  | true => exact decimalText_writes_positional l h

/-! ## The text of a number -/

theorem Decimal.exact_bounds (h : 0 < d.coefficient) :
    (10 : ℚ) ^ d.lead ≤ d.exact ∧ d.exact < 10 ^ (d.lead + 1) := by
  have row := isRow_toDigits d.coefficient
  obtain ⟨c, rest, hdigits, hzero⟩ := toDigits_of_pos h
  have hleast : 10 ^ rest.length ≤ digitsValue (c :: rest) :=
    pow_le_digitsValue (row.isDigit c (hdigits ▸ List.mem_cons_self)) hzero
  have hmost := digitsValue_lt row.isDigit
  rw [← hdigits, digitsValue_toDigits] at hleast
  rw [digitsValue_toDigits] at hmost
  have hlead : d.lead = rest.length + d.scale := by
    rw [Decimal.lead, Decimal.digits, hdigits, List.length_cons]
    push_cast
    ring
  have hlength : d.lead + 1 = d.digits.length + d.scale := by
    rw [Decimal.lead]
    ring
  have hpos : (0 : ℚ) < 10 ^ d.scale := by positivity
  rw [hlength, hlead, zpow_add₀ (by norm_num), zpow_add₀ (by norm_num), zpow_natCast, zpow_natCast,
    Decimal.exact]
  constructor
  · rw [mul_le_mul_iff_left₀ hpos]
    exact_mod_cast hleast
  · rw [mul_lt_mul_iff_left₀ hpos]
    exact_mod_cast hmost

theorem Decimal.coefficient_pos {code : Nat} (hrounds : RoundsTo d.exact code) (hpos : 0 < code)
    (hlt : code < infinity) : 0 < d.coefficient := by
  have hexact : 0 < d.exact :=
    (show (0 : ℚ) < 2 ^ (-1075 : Int) by positivity).trans_le (hrounds.bounds hpos hlt).1
  apply Nat.pos_of_ne_zero
  intro hzero
  rw [Decimal.exact, hzero, Nat.cast_zero, zero_mul] at hexact
  exact hexact.false

/-- What is rounded to a finite number has an exponent of few digits. -/
theorem Decimal.natAbs_lead_le {code : Nat} (hrounds : RoundsTo d.exact code) (hpos : 0 < code)
    (hlt : code < infinity) : d.lead.natAbs ≤ 400 := by
  obtain ⟨hlower, hupper⟩ := Decimal.exact_bounds (Decimal.coefficient_pos hrounds hpos hlt)
  obtain ⟨hleast, hmost⟩ := hrounds.bounds hpos hlt
  have hpowers : (2 : ℚ) ^ (1075 : Int) ≤ 10 ^ (400 : Int) := by
    exact_mod_cast two_pow_le_ten_pow
  have hten : (1 : ℚ) < 10 := by norm_num
  have hhigh : (10 : ℚ) ^ d.lead ≤ 10 ^ (400 : Int) :=
    calc (10 : ℚ) ^ d.lead ≤ 2 ^ (1024 : Int) := hlower.trans hmost
      _ ≤ 2 ^ (1075 : Int) := zpow_le_zpow_right₀ (by norm_num) (by norm_num)
      _ ≤ 10 ^ (400 : Int) := hpowers
  have hlow : (10 : ℚ) ^ (-400 : Int) < 10 ^ (d.lead + 1) :=
    calc (10 : ℚ) ^ (-400 : Int) ≤ 2 ^ (-1075 : Int) := by
          rw [zpow_neg, zpow_neg]
          exact inv_anti₀ (by positivity) hpowers
      _ < 10 ^ (d.lead + 1) := hleast.trans_lt hupper
  rw [zpow_le_zpow_iff_right₀ hten] at hhigh
  rw [zpow_lt_zpow_iff_right₀ hten] at hlow
  omega

/-- The text of a positive number is a numeral that denotes what the digits do, and its code is
the one of the number. -/
theorem magnitudeText_writes {code : Nat} (hpos : 0 < code) (hlt : code < infinity) :
    ∃ n, Writes n (l.magnitudeText code) ∧ n.exact = (shortest l.tie code).exact ∧
      n.code = code := by
  have hrounds := shortest_roundsTo l.tie hpos hlt
  have hlead := Decimal.natAbs_lead_le hrounds hpos hlt
  obtain ⟨n, hwrites, hexact⟩ :=
    decimalText_writes l (show (shortest l.tie code).lead.natAbs < 0x10000 by omega)
  refine ⟨n, ?_, hexact, ?_⟩
  · rw [Layout.magnitudeText, if_neg hlt.ne, if_neg hpos.ne']
    exact hwrites
  · have hnear := isNearest_code hwrites.isDigit
    rw [hexact] at hnear
    exact hnear.unique (hrounds.isNearest hlt.le)

end Binary
end ComponentMarkup
