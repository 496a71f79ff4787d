import ComponentMarkup.Proofs.Number.Scanning
import ComponentMarkup.Proofs.Script.Readings

/-!
# Numbers of expressions

A number that is written out is taken in whole and read back where the code ends or a blank
comes next.
-/

namespace ComponentMarkup
namespace Script

/-- Whether the code ends or a blank comes next. -/
def AtBorder (rest : List Char) : Prop :=
  ∀ c ∈ rest.head?, Text.isBlank c = true

theorem AtBorder.forall_head? {P : Char → Prop} {rest : List Char} (h : AtBorder rest)
    (hall : ∀ code ∈ blankCodes, P (Char.ofNat code)) : ∀ c ∈ rest.head?, P c :=
  fun c hc => of_isBlank hall (h c hc)

theorem AtBorder.noWord {rest : List Char} (h : AtBorder rest) :
    ∀ c ∈ rest.head?, continuesWord c = false :=
  fun c hc => continuesWord_of_isBlank (h c hc)

/-!
# Digits
-/

theorem of_isDigit {P : Char → Prop} (hall : ∀ code ∈ List.range' 48 10, P (Char.ofNat code))
    {c : Char} (h : c.isDigit = true) : P c := by
  obtain ⟨hfirst, hlast⟩ := Char.isDigit_iff_toNat.mp h
  have hmem : c.toNat ∈ List.range' 48 10 := by
    rw [List.mem_range'_1]
    exact ⟨hfirst, Nat.lt_succ_of_le hlast⟩
  exact of_mem_codes hall hmem

theorem readToken_of_isDigit {c : Char} (h : c.isDigit = true) (rest : List Char) :
    readToken c rest = readNumber (c :: rest) := by
  have hword : startsWord c = false :=
    of_isDigit (P := fun c => startsWord c = false) (by decide) h
  rw [readToken, hword, if_neg Bool.false_ne_true, startsNumber, h, Bool.true_or, if_pos rfl]

theorem gapSize_of_isDigit {c : Char} (h : c.isDigit = true) (rest : List Char) :
    gapSize .blanks 0 (c :: rest) = 0 := by
  obtain ⟨hblank, hslash⟩ :=
    of_isDigit (P := fun c => Text.isBlank c = false ∧ c ≠ '/') (by decide) h
  exact gapSize_of_start hblank hslash 0 rest

/-!
# What a number takes
-/

/-- What stands at the front, and what stands at the front of the rest. -/
theorem isPrefix_append {front next cs : List Char} (hfront : front <+: cs)
    (hnext : next <+: cs.drop front.length) : front ++ next <+: cs := by
  obtain ⟨rest, rfl⟩ := hfront
  rw [List.drop_left] at hnext
  exact (List.prefix_append_right_inj front).mpr hnext

theorem isPrefix_fractionPart (cs : List Char) : fractionPart cs <+: cs := by
  unfold fractionPart
  split
  · rename_i rest
    dsimp only
    split
    · exact List.nil_prefix
    · exact List.cons_prefix_cons.mpr ⟨rfl, List.takeWhile_prefix Char.isDigit⟩
  · exact List.nil_prefix

theorem isPrefix_signPart (cs : List Char) : signPart cs <+: cs := by
  unfold signPart
  split
  · exact List.cons_prefix_cons.mpr ⟨rfl, List.nil_prefix⟩
  · exact List.cons_prefix_cons.mpr ⟨rfl, List.nil_prefix⟩
  · exact List.nil_prefix

theorem isPrefix_exponentPart (cs : List Char) : exponentPart cs <+: cs := by
  cases cs with
  | nil => exact List.nil_prefix
  | cons mark rest =>
      rw [exponentPart]
      split
      · dsimp only
        refine List.cons_prefix_cons.mpr ⟨rfl, isPrefix_append (isPrefix_signPart rest) ?_⟩
        exact List.takeWhile_prefix Char.isDigit
      · exact List.nil_prefix

/-- A decimal number is taken from the front. -/
theorem isPrefix_decimalPart (cs : List Char) : decimalPart cs <+: cs := by
  have hbehind := isPrefix_append (isPrefix_fractionPart (cs.dropWhile Char.isDigit))
    (isPrefix_exponentPart _)
  obtain ⟨rest, hrest⟩ := hbehind
  refine ⟨rest, ?_⟩
  unfold decimalPart
  dsimp only
  rw [List.append_assoc, List.append_assoc, ← List.append_assoc (fractionPart _), hrest,
    List.takeWhile_append_dropWhile]

theorem forall_mem_fractionPart {P : Char → Prop}
    (hdigit : ∀ c : Char, c.isDigit = true → P c) (hpoint : P '.') (cs : List Char) :
    ∀ c ∈ fractionPart cs, P c := by
  unfold fractionPart
  split
  · dsimp only
    split
    · exact List.forall_mem_nil P
    · exact List.forall_mem_cons.mpr ⟨hpoint, fun c hc => hdigit c (List.mem_takeWhile_imp hc)⟩
  · exact List.forall_mem_nil P

theorem forall_mem_signPart {P : Char → Prop} (hplus : P '+') (hminus : P '-')
    (cs : List Char) : ∀ c ∈ signPart cs, P c := by
  unfold signPart
  split
  · exact List.forall_mem_singleton.mpr hplus
  · exact List.forall_mem_singleton.mpr hminus
  · exact List.forall_mem_nil P

theorem forall_mem_exponentPart {P : Char → Prop}
    (hdigit : ∀ c : Char, c.isDigit = true → P c) (hmarks : P 'e' ∧ P 'E' ∧ P '+' ∧ P '-')
    (cs : List Char) : ∀ c ∈ exponentPart cs, P c := by
  obtain ⟨hlower, hupper, hplus, hminus⟩ := hmarks
  cases cs with
  | nil => exact List.forall_mem_nil P
  | cons mark rest =>
      rw [exponentPart]
      split
      · rename_i hmark
        dsimp only
        rw [List.cons_append, List.forall_mem_cons, List.forall_mem_append]
        refine ⟨?_, forall_mem_signPart hplus hminus rest,
          fun c hc => hdigit c (List.mem_takeWhile_imp hc)⟩
        rcases hmark with rfl | rfl
        · exact hlower
        · exact hupper
      · exact List.forall_mem_nil P

theorem forall_mem_decimalPart {P : Char → Prop}
    (hall : ∀ code ∈ List.range' 48 10, P (Char.ofNat code))
    (hmarks : P '.' ∧ P 'e' ∧ P 'E' ∧ P '+' ∧ P '-') (cs : List Char) :
    ∀ c ∈ decimalPart cs, P c := by
  have hdigit : ∀ c : Char, c.isDigit = true → P c := fun c hc => of_isDigit hall hc
  unfold decimalPart
  dsimp only
  rw [List.forall_mem_append, List.forall_mem_append]
  exact ⟨⟨fun c hc => hdigit c (List.mem_takeWhile_imp hc),
    forall_mem_fractionPart hdigit hmarks.1 _⟩, forall_mem_exponentPart hdigit hmarks.2 _⟩

/-!
# Numerals in base ten
-/

theorem afterHexMark?_eq_none {c : Char} {rest : List Char}
    (h : ∀ d ∈ rest.head?, d ≠ 'x' ∧ d ≠ 'X') : afterHexMark? (c :: rest) = none := by
  unfold afterHexMark?
  split
  · rename_i hmark
    obtain ⟨_, rfl⟩ := List.cons.inj hmark
    exact absurd rfl (h _ rfl).1
  · rename_i hmark
    obtain ⟨_, rfl⟩ := List.cons.inj hmark
    exact absurd rfl (h _ rfl).2
  · rfl

theorem fractionPart_of_writes {fraction pointed next : List Char}
    (h : Numeral.WritesFraction fraction pointed)
    (hnext : ∀ c ∈ next.head?, c.isDigit = false ∧ c ≠ '.') :
    fractionPart (pointed ++ next) = pointed := by
  cases h with
  | none =>
      rw [List.nil_append]
      unfold fractionPart
      split
      · exact absurd rfl (hnext _ rfl).2
      · rfl
  | point row =>
      have hdigits : ∀ c ∈ next.head?, c.isDigit = false := fun c hc => (hnext c hc).1
      rw [List.cons_append, fractionPart, Text.takeWhile_append_stopped row.isDigit hdigits,
        row.isEmpty_eq_false, if_neg Bool.false_ne_true]

theorem signPart_of_writes {negative : Bool} {sign digits : List Char}
    (h : Numeral.WritesSign negative sign) (row : Numeral.IsRow digits) (rest : List Char) :
    signPart (sign ++ (digits ++ rest)) = sign := by
  cases h with
  | none =>
      obtain ⟨c, more, rfl, hdigit⟩ := row.exists_cons
      rw [List.nil_append, List.cons_append]
      unfold signPart
      split
      · rename_i hplus
        cases hplus
        exact absurd hdigit (by decide)
      · rename_i hminus
        cases hminus
        exact absurd hdigit (by decide)
      · rfl
  | plus => rfl
  | minus => rfl

theorem exponentPart_of_writes {exponent : Int} {marked rest : List Char}
    (h : Numeral.WritesExponent exponent marked)
    (hrest : ∀ c ∈ rest.head?, c.isDigit = false ∧ c ≠ 'e' ∧ c ≠ 'E') :
    exponentPart (marked ++ rest) = marked := by
  cases h with
  | none =>
      cases rest with
      | nil => rfl
      | cons c more =>
          obtain ⟨_, hlower, hupper⟩ := hrest c rfl
          rw [List.nil_append, exponentPart, if_neg (not_or.mpr ⟨hlower, hupper⟩)]
  | @marked mark negative sign digits isMark writesSign row =>
      have hdigits : ∀ c ∈ rest.head?, c.isDigit = false := fun c hc => (hrest c hc).1
      rw [List.cons_append, List.append_assoc, exponentPart, if_pos isMark,
        signPart_of_writes writesSign row]
      dsimp only
      rw [List.drop_left, Text.takeWhile_append_stopped row.isDigit hdigits]
      rfl

/-- A numeral is taken in whole where nothing goes on with it. -/
theorem decimalPart_of_writes {n : Numeral} {w rest : List Char} (h : n.Writes w)
    (hrest : ∀ c ∈ rest.head?, c.isDigit = false ∧ c ≠ '.' ∧ c ≠ 'e' ∧ c ≠ 'E') :
    decimalPart (w ++ rest) = w := by
  cases h with
  | @mk whole fraction exponent pointed marked row writesFraction writesExponent =>
      have hexponent : ∀ c ∈ (marked ++ rest).head?, c.isDigit = false ∧ c ≠ '.' :=
        Text.forall_head?_append (writesExponent.forall_head? (by decide))
          fun c hc => ⟨(hrest c hc).1, (hrest c hc).2.1⟩
      have hwhole : ∀ c ∈ (pointed ++ (marked ++ rest)).head?, c.isDigit = false :=
        Text.forall_head?_append (writesFraction.forall_head? (by decide))
          fun c hc => (hexponent c hc).1
      have hend : ∀ c ∈ rest.head?, c.isDigit = false ∧ c ≠ 'e' ∧ c ≠ 'E' :=
        fun c hc => ⟨(hrest c hc).1, (hrest c hc).2.2⟩
      rw [List.append_assoc, List.append_assoc, decimalPart,
        Text.takeWhile_append_stopped row.isDigit hwhole,
        Text.dropWhile_append_stopped row.isDigit hwhole,
        fractionPart_of_writes writesFraction hexponent, List.drop_left,
        exponentPart_of_writes writesExponent hend, List.append_assoc]

theorem readNumber_of_writes {n : Numeral} {w rest : List Char} (h : n.Writes w)
    (hrest : AtBorder rest) :
    readNumber (w ++ rest) = (.ok (.number n.value), w.length) := by
  have htaken : decimalPart (w ++ rest) = w :=
    decimalPart_of_writes h (hrest.forall_head? (by decide))
  have hmark : afterHexMark? (w ++ rest) = none := by
    cases h with
    | @mk whole fraction exponent pointed marked row writesFraction writesExponent =>
        obtain ⟨c, more, rfl, _⟩ := row.exists_cons
        have hmore : ∀ d ∈ more.head?, d ≠ 'x' ∧ d ≠ 'X' := by
          intro d hd
          have hmem : d ∈ c :: more := List.mem_cons_of_mem c (List.mem_of_mem_head? hd)
          exact of_isDigit (P := fun d => d ≠ 'x' ∧ d ≠ 'X') (by decide) (row.isDigit d hmem)
        rw [List.append_assoc, List.append_assoc, List.cons_append]
        exact afterHexMark?_eq_none (Text.forall_head?_append hmore
          (Text.forall_head?_append (writesFraction.forall_head? (by decide))
            (Text.forall_head?_append (writesExponent.forall_head? (by decide))
              (hrest.forall_head? (by decide)))))
  rw [readNumber, hmark]
  dsimp only
  rw [htaken, Numeral.read?_of_writes h]

theorem readings_decimal {n : Numeral} {w rest : List Char} (h : n.Writes w)
    (hrest : AtBorder rest) : readings (w ++ rest) = .ok (.number n.value) :: readings rest := by
  have hread := readNumber_of_writes h hrest
  have hstart : ∃ c more, w = c :: more ∧ c.isDigit = true := by
    cases h with
    | mk row writesFraction writesExponent =>
        obtain ⟨c, more, rfl, hdigit⟩ := row.exists_cons
        exact ⟨c, _, rfl, hdigit⟩
  obtain ⟨c, more, rfl, hdigit⟩ := hstart
  rw [List.cons_append, ← readToken_of_isDigit hdigit] at hread
  exact readings_token (gapSize_of_isDigit hdigit _) hread

/-!
# Numerals in base sixteen
-/

theorem readHexNumber_of_digits {digits rest : List Char} (row : digits ≠ [])
    (isDigit : ∀ d ∈ digits, Text.Hexadecimal.isDigit d = true) (short : digits.length ≤ 16)
    (hrest : AtBorder rest) :
    readHexNumber (digits ++ rest) =
      (.ok (.number (Binary.ofNat (Text.Hexadecimal.value digits))), digits.length) := by
  have hstop : ∀ d ∈ rest.head?, Text.Hexadecimal.isDigit d = false :=
    hrest.forall_head? (by decide)
  have hfits : Text.Hexadecimal.value digits < Binary.wordCount :=
    Nat.lt_of_lt_of_le (Text.Hexadecimal.value_lt isDigit)
      (Nat.pow_le_pow_right (by decide) short)
  have hvalue : hexValue? digits = some (Binary.ofNat (Text.Hexadecimal.value digits)) := by
    rw [hexValue?, if_neg (by simpa [row] using isDigit), if_pos hfits]
  rw [readHexNumber, Text.takeWhile_append_stopped isDigit hstop, hvalue]

theorem readings_hexadecimal {mark : Char} (hmark : mark = 'x' ∨ mark = 'X')
    {digits rest : List Char} (row : digits ≠ [])
    (isDigit : ∀ d ∈ digits, Text.Hexadecimal.isDigit d = true) (short : digits.length ≤ 16)
    (hrest : AtBorder rest) :
    readings ('0' :: mark :: digits ++ rest) =
      .ok (.number (Binary.ofNat (Text.Hexadecimal.value digits))) :: readings rest := by
  have hbehind : afterHexMark? ('0' :: (mark :: digits ++ rest)) = some (digits ++ rest) := by
    rcases hmark with rfl | rfl <;> rfl
  refine readings_token (gapSize_of_isDigit rfl _) ?_
  rw [readToken_of_isDigit rfl, readNumber, hbehind]
  dsimp only
  rw [readHexNumber_of_digits row isDigit short hrest]
  rfl

end Script
end ComponentMarkup
