import ComponentMarkup.Proofs.Number.Codes
import ComponentMarkup.Proofs.Number.Fewest
import ComponentMarkup.Proofs.Script.Numbers

/-!
# Texts of numbers

A number is written with its shortest digits, and the exponent of the first digit decides
whether they are followed by zeros, have a point between them or are scaled.  Both ways of
reading a text as a number give the number back.
-/

namespace ComponentMarkup
namespace Script

open Numeral Binary

/-! ## Numerals behind a sign -/

theorem forall_mem_of_spells {P : Char → Prop} {n : Numeral} {w : List Char} (h : Spells n w)
    (hall : ∀ code ∈ List.range' 48 10, P (Char.ofNat code))
    (hmarks : P '.' ∧ P 'e' ∧ P 'E' ∧ P '+' ∧ P '-') : ∀ c ∈ w, P c := by
  obtain ⟨hpoint, hlower, hupper, hplus, hminus⟩ := hmarks
  have hdigits : ∀ {digits : List Char}, (∀ c ∈ digits, c.isDigit = true) → ∀ c ∈ digits, P c :=
    fun isDigit c hc => of_isDigit hall (isDigit c hc)
  cases h with
  | mk spellsDigits writesExponent =>
      intro c hc
      rcases List.mem_append.mp hc with hc | hc
      · cases spellsDigits with
        | whole row => exact hdigits row.isDigit c hc
        | point row isDigit =>
            rw [List.mem_append, List.mem_cons] at hc
            rcases hc with hc | rfl | hc
            · exact hdigits row.isDigit c hc
            · exact hpoint
            · exact hdigits isDigit c hc
        | behind row =>
            rcases List.mem_cons.mp hc with rfl | hc
            · exact hpoint
            · exact hdigits row.isDigit c hc
      · cases writesExponent with
        | none => cases hc
        | marked isMark writesSign row =>
            rw [List.mem_cons, List.mem_append] at hc
            rcases hc with rfl | hc | hc
            · rcases isMark with rfl | rfl
              · exact hlower
              · exact hupper
            · cases writesSign with
              | none => cases hc
              | plus => exact List.mem_singleton.mp hc ▸ hplus
              | minus => exact List.mem_singleton.mp hc ▸ hminus
            · exact hdigits row.isDigit c hc

/-- A numeral starts with a digit or a point. -/
theorem exists_cons_of_spells {P : Char → Prop} {n : Numeral} {w : List Char} (h : Spells n w)
    (hall : ∀ code ∈ List.range' 48 10, P (Char.ofNat code)) (hpoint : P '.') :
    ∃ c rest, w = c :: rest ∧ P c := by
  have hrow : ∀ {digits}, IsRow digits → ∃ c rest, digits = c :: rest ∧ P c := by
    intro digits row
    obtain ⟨c, rest, hdigits, hdigit⟩ := row.exists_cons
    exact ⟨c, rest, hdigits, of_isDigit hall hdigit⟩
  cases h with
  | mk spellsDigits writesExponent =>
      cases spellsDigits with
      | whole row =>
          obtain ⟨c, rest, rfl, hc⟩ := hrow row
          exact ⟨c, _, rfl, hc⟩
      | point row isDigit =>
          obtain ⟨c, rest, rfl, hc⟩ := hrow row
          exact ⟨c, _, rfl, hc⟩
      | behind row => exact ⟨'.', _, rfl, hpoint⟩

theorem trim_of_noBlank {cs : List Char} (h : ∀ c ∈ cs, Text.isBlank c = false) :
    Text.trim cs = cs := by
  have hkept : ∀ more : List Char, (∀ c ∈ more, c ∈ cs) → more.dropWhile Text.isBlank = more :=
    fun more hmore => Text.dropWhile_of_stopped
      fun c hc => h c (hmore c (List.mem_of_mem_head? hc))
  rw [Text.trim, Text.trimStart, hkept cs fun _ hc => hc, Text.trimEnd,
    hkept cs.reverse fun _ hc => List.mem_reverse.mp hc, List.reverse_reverse]

theorem afterHexMark?_of_noMark {cs : List Char} (h : ∀ c ∈ cs, c ≠ 'x' ∧ c ≠ 'X') :
    afterHexMark? cs = none := by
  cases cs with
  | nil => rfl
  | cons c rest =>
      exact afterHexMark?_eq_none
        fun d hd => h d (List.mem_cons_of_mem c (List.mem_of_mem_head? hd))

theorem withSign_ofCode (negative : Bool) {c : Nat} (h : c ≤ infinity) :
    withSign negative (ofCode false c) = ofCode negative c := by
  cases negative with
  | false => rfl
  | true => exact neg_ofCode h

theorem forall_mem_append_of_spells {P : Char → Prop} {negative : Bool} {sign w : List Char}
    {n : Numeral} (hsign : WritesSign negative sign) (h : Spells n w)
    (hall : ∀ code ∈ List.range' 48 10, P (Char.ofNat code))
    (hmarks : P '.' ∧ P 'e' ∧ P 'E' ∧ P '+' ∧ P '-') : ∀ c ∈ sign ++ w, P c := by
  intro c hc
  rcases List.mem_append.mp hc with hc | hc
  · cases hsign with
    | none => cases hc
    | plus => exact List.mem_singleton.mp hc ▸ hmarks.2.2.2.1
    | minus => exact List.mem_singleton.mp hc ▸ hmarks.2.2.2.2
  · exact forall_mem_of_spells h hall hmarks c hc

theorem scanSign_spells_append {negative : Bool} {sign w : List Char} {n : Numeral}
    (hsign : WritesSign negative sign) (h : Spells n w) (rest : List Char) :
    scanSign (sign ++ (w ++ rest)) = (negative, w ++ rest) := by
  obtain ⟨c, more, rfl, hc⟩ :=
    exists_cons_of_spells (P := fun c => c ≠ '+' ∧ c ≠ '-') h (by decide) (by decide)
  refine scanSign_append hsign ?_
  rintro _ ⟨⟩
  exact hc

theorem not_infinity_of_spells {w : List Char} {n : Numeral} (h : Spells n w) (rest : List Char) :
    ¬ "Infinity".toList <+: w ++ rest := by
  obtain ⟨c, more, rfl, hc⟩ :=
    exists_cons_of_spells (P := fun c => c ≠ 'I') h (by decide) (by decide)
  exact fun hword => hc (List.cons_prefix_cons.mp hword).1.symm

/-- A numeral behind a sign is read from end to end. -/
theorem numberOfText_of_spells {negative : Bool} {sign w : List Char} {n : Numeral}
    (hsign : WritesSign negative sign) (h : Spells n w) :
    numberOfText (String.ofList (sign ++ w)) = withSign negative n.value := by
  have hchars : ∀ c ∈ sign ++ w, Text.isBlank c = false ∧ c ≠ 'x' ∧ c ≠ 'X' :=
    forall_mem_append_of_spells (P := fun c => Text.isBlank c = false ∧ c ≠ 'x' ∧ c ≠ 'X') hsign h
      (by decide) (by decide)
  have hscan := scanSign_spells_append hsign h []
  have hword := not_infinity_of_spells h []
  rw [List.append_nil] at hscan hword
  rw [numberOfText, String.toList_ofList, trim_of_noBlank fun d hd => (hchars d hd).1]
  split
  · rename_i hnil
    obtain ⟨_, rfl⟩ := List.append_eq_nil_iff.mp hnil
    cases read?_of_spells h
  · have hnot : w ≠ "Infinity".toList := by
      rintro rfl
      exact hword (List.prefix_refl _)
    rw [afterHexMark?_of_noMark fun d hd => (hchars d hd).2, hscan]
    dsimp only
    rw [if_neg hnot, read?_of_spells h]

theorem numberOfText_infinity {negative : Bool} {sign : List Char}
    (hsign : WritesSign negative sign) :
    numberOfText (String.ofList (sign ++ "Infinity".toList)) =
      withSign negative positiveInfinity := by
  cases hsign <;> rfl

/-- A numeral behind a sign is read from the front. -/
theorem numberOfFront_of_spells {negative : Bool} {sign w : List Char} {n : Numeral}
    (hsign : WritesSign negative sign) (h : Spells n w) :
    numberOfFront (String.ofList (sign ++ w)) = withSign negative n.value := by
  have hchars : ∀ c ∈ sign ++ w, Text.isBlank c = false :=
    forall_mem_append_of_spells (P := fun c => Text.isBlank c = false) hsign h
      (by decide) (by decide)
  have htrim : Text.trimStart (sign ++ w) = sign ++ w :=
    Text.dropWhile_of_stopped fun d hd => hchars d (List.mem_of_mem_head? hd)
  have hscan := scanSign_spells_append hsign h []
  have hword := not_infinity_of_spells h []
  rw [List.append_nil] at hscan hword
  rw [numberOfFront, String.toList_ofList, htrim, hscan]
  dsimp only
  rw [if_neg fun hsame => hword (List.isPrefixOf_iff_prefix.mp hsame), scan_of_spells h]

/-! ## The form of a text -/

/-- The form of a text with given digits, where `e` is the exponent of the first digit: the
digits with zeros behind them, digits with a point between them, or digits that are scaled. -/
inductive HasForm (digits : List Char) (e : Int) : List Char → Prop where
  | whole {text} (fits : digits.length ≤ e + 1 ∧ e + 1 ≤ 21) (row : IsRow text) :
      HasForm digits e text
  | pointed {whole fraction} (misfits : ¬ (digits.length ≤ e + 1 ∧ e + 1 ≤ 21))
      (near : -7 < e ∧ e < 21) (row : IsRow whole) (rowBehind : IsRow fraction) :
      HasForm digits e (whole ++ '.' :: fraction)
  | scaled {first rest pointed} (far : ¬ (-7 < e ∧ e < 21)) (isDigits : digits = first :: rest)
      (writesRest : WritesFraction rest pointed) :
      HasForm digits e
        (first :: (pointed ++ 'e' :: (if e < 0 then '-' else '+') :: Nat.toDigits 10 e.natAbs))

theorem hasForm_decimalText (d : Decimal) :
    HasForm d.digits d.lead (numberLayout.decimalText d) := by
  have row := isRow_toDigits d.coefficient
  have hlength := List.length_pos_iff.mpr row.ne_nil
  unfold Layout.decimalText Decimal.lead Decimal.digits
  simp only [Int.ofNat_eq_natCast]
  generalize Nat.toDigits 10 d.coefficient = digits at *
  generalize hlead : d.scale + digits.length - 1 = e
  by_cases hnear : -7 < e ∧ e < 21
  · rw [if_pos (by simpa [numberLayout] using hnear)]
    split
    · rw [numberLayout, if_neg Bool.false_ne_true, List.append_nil]
      exact .whole (by omega) (row.append (isDigit_of_mem_replicate _))
    · split
      · exact .pointed (by omega) hnear (row.take (by omega)) (row.drop (by omega))
      · exact .pointed (by omega) hnear (isRow_singleton rfl)
          (row.append_left (isDigit_of_mem_replicate _))
  · rw [if_neg (by simpa [numberLayout] using hnear)]
    have htext : numberLayout.exponentText e =
        'e' :: (if e < 0 then '-' else '+') :: Nat.toDigits 10 e.natAbs := by
      unfold Layout.exponentText numberLayout
      dsimp only
      split <;> rfl
    rw [htext]
    split
    · exact absurd rfl row.ne_nil
    · exact .scaled hnear rfl .none
    · rename_i digit rest hrest
      exact .scaled hnear rfl
        (.point ⟨hrest, fun c hc => row.isDigit c (List.mem_cons_of_mem digit hc)⟩)

/-! ## Numbers and their texts -/

theorem render_eq {x : Float} (hzero : code x ≠ 0) (hnumber : code x ≤ infinity) :
    numberLayout.render x =
      String.ofList ((if isNegative x then ['-'] else []) ++
        numberLayout.magnitudeText (code x)) := by
  have hsigned : (isNegative x && (code x != 0 || numberLayout.signsZero)) = isNegative x := by
    simp [hzero]
  rw [Layout.render]
  dsimp only
  rw [if_neg (Nat.not_lt.mpr hnumber), hsigned]

theorem writesSign_isNegative (negative : Bool) :
    WritesSign negative (if negative then ['-'] else []) := by
  cases negative with
  | false => exact .none
  | true => exact .minus

/-- A number up to infinity is printed with the fewest digits that are rounded to it, exactly and
in the form that the digits and the exponent ask for, and it is read back from its text. -/
theorem numberOfText_render {x : Float} (hzero : code x ≠ 0) (hnumber : code x ≤ infinity) :
    numberOfText (numberLayout.render x) = x ∧
      (code x < infinity →
        numberOfFront (numberLayout.render x) = x ∧
        IsShortest (shortest .upper (code x)) (code x) ∧
        ∃ text n,
          numberLayout.render x =
            String.ofList ((if isNegative x then ['-'] else []) ++ text) ∧
          HasForm (shortest .upper (code x)).digits (shortest .upper (code x)).lead text ∧
          Writes n text ∧
          n.exact = digitsValue (shortest .upper (code x)).digits *
            10 ^ ((shortest .upper (code x)).lead + 1 -
              (shortest .upper (code x)).digits.length)) := by
  have hsign := writesSign_isNegative (isNegative x)
  rw [render_eq hzero hnumber]
  rcases hnumber.lt_or_eq with hlt | hinfinite
  · have hpos := Nat.pos_of_ne_zero hzero
    obtain ⟨n, hwrites, hexact, hcode⟩ := magnitudeText_writes numberLayout hpos hlt
    have hvalue : withSign (isNegative x) n.value = x := by
      rw [Numeral.value, hcode, withSign_ofCode _ hnumber, ofCode_code]
    have htext := numberOfText_of_spells hsign hwrites.spells
    have hfront := numberOfFront_of_spells hsign hwrites.spells
    rw [hvalue] at htext hfront
    have hshortest := isShortest_shortest .upper hpos hlt
    refine ⟨htext, fun _ => ⟨hfront, hshortest, _, n, rfl, ?_, hwrites, ?_⟩⟩
    · rw [Layout.magnitudeText, if_neg hlt.ne, if_neg hzero]
      exact hasForm_decimalText _
    · rw [hexact, Decimal.exact_eq_digits]
      congr 2
      unfold Decimal.lead
      ring_nf
      rfl
  · refine ⟨?_, fun hlt => absurd hinfinite hlt.ne⟩
    have hword : numberLayout.magnitudeText (code x) = "Infinity".toList := by
      rw [Layout.magnitudeText, if_pos hinfinite]
      rfl
    rw [hword, numberOfText_infinity hsign, positiveInfinity,
      withSign_ofCode _ (Nat.le_refl infinity), ← hinfinite, ofCode_code]

/-- The number `-1.25e-10`. -/
def smallNegative : Float :=
  ofCode true 0x3DE12E0BE826D695

theorem numberOfText_render_smallNegative :
    numberLayout.render smallNegative = "-1.25e-10" ∧
      numberOfText "-1.25e-10" = smallNegative ∧ numberOfFront "-1.25e-10" = smallNegative := by
  have hrender : numberLayout.render smallNegative = "-1.25e-10" := by rfl
  have hlt : code smallNegative < infinity := by decide
  obtain ⟨htext, hfinite⟩ := numberOfText_render (show code smallNegative ≠ 0 by decide) hlt.le
  have hfront := (hfinite hlt).1
  rw [hrender] at htext hfront
  exact ⟨hrender, htext, hfront⟩

end Script
end ComponentMarkup
