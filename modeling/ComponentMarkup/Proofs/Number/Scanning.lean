import ComponentMarkup.Proofs.Number.Numerals

/-!
# Numerals that are read

A numeral can be spelled with digits on one side of the point only.  What is read at the front
of a text spells the numeral, and it is as long as any spelling that stands there.  From end to
end a spelling is read as its numeral.
-/

namespace ComponentMarkup
namespace Numeral

/-- How the digits of a numeral are spelled. -/
inductive SpellsDigits : List Char → List Char → List Char → Prop where
  | whole {whole} (row : IsRow whole) : SpellsDigits whole [] whole
  | point {whole fraction} (row : IsRow whole) (isDigit : ∀ c ∈ fraction, c.isDigit = true) :
      SpellsDigits whole fraction (whole ++ '.' :: fraction)
  | behind {fraction} (row : IsRow fraction) : SpellsDigits [] fraction ('.' :: fraction)

/-- How a numeral is spelled. -/
inductive Spells : Numeral → List Char → Prop where
  | mk {whole fraction exponent digits marked} (spellsDigits : SpellsDigits whole fraction digits)
      (writesExponent : WritesExponent exponent marked) :
      Spells ⟨whole, fraction, exponent⟩ (digits ++ marked)

theorem Writes.spells {n : Numeral} {w : List Char} (h : Writes n w) : Spells n w := by
  cases h with
  | mk row writesFraction writesExponent =>
      rw [← List.append_assoc]
      refine .mk ?_ writesExponent
      cases writesFraction with
      | none => rw [List.append_nil]; exact .whole row
      | point rowBehind => exact .point row rowBehind.isDigit

/-! ## Signs -/

/-- What is written behind a sign is read behind it. -/
theorem scanSign_append {negative : Bool} {sign w : List Char} (h : WritesSign negative sign)
    (hw : ∀ c ∈ w.head?, c ≠ '+' ∧ c ≠ '-') : scanSign (sign ++ w) = (negative, w) := by
  cases h with
  | none =>
      rw [List.nil_append]
      unfold scanSign
      split
      · exact absurd rfl (hw _ rfl).1
      · exact absurd rfl (hw _ rfl).2
      · rfl
  | plus => rfl
  | minus => rfl

theorem scanSign_spells (cs : List Char) :
    ∃ sign, WritesSign (scanSign cs).1 sign ∧ cs = sign ++ (scanSign cs).2 := by
  unfold scanSign
  split
  · exact ⟨['+'], .plus, rfl⟩
  · exact ⟨['-'], .minus, rfl⟩
  · exact ⟨[], .none, rfl⟩

/-! ## Rows of digits -/

theorem IsRow.forall_head?_append {P : Char → Prop} {digits : List Char} (h : IsRow digits)
    (hdigit : ∀ c : Char, c.isDigit = true → P c) (rest : List Char) :
    ∀ c ∈ (digits ++ rest).head?, P c := by
  obtain ⟨c, more, rfl, hc⟩ := h.exists_cons
  rintro _ ⟨⟩
  exact hdigit c hc

theorem not_sign_of_isDigit (c : Char) (h : c.isDigit = true) : c ≠ '+' ∧ c ≠ '-' := by
  constructor
  · rintro rfl
    cases h
  · rintro rfl
    cases h

theorem isRow_takeWhile {cs : List Char} (h : (cs.takeWhile Char.isDigit).isEmpty = false) :
    IsRow (cs.takeWhile Char.isDigit) :=
  ⟨List.isEmpty_eq_false_iff.mp h, fun _ hc => List.mem_takeWhile_imp hc⟩

theorem IsRow.takeWhile_append_isEmpty {digits : List Char} (h : IsRow digits)
    (rest : List Char) : ((digits ++ rest).takeWhile Char.isDigit).isEmpty = false := by
  obtain ⟨c, more, rfl, hc⟩ := h.exists_cons
  rw [List.cons_append, List.takeWhile_cons_of_pos hc]
  rfl

theorem length_dropWhile_append_le {digits : List Char} (h : ∀ c ∈ digits, c.isDigit = true)
    (rest : List Char) : ((digits ++ rest).dropWhile Char.isDigit).length ≤ rest.length := by
  rw [List.dropWhile_append_of_pos h]
  exact (List.dropWhile_sublist Char.isDigit).length_le

/-! ## Exponents -/

theorem scanExponent_spells (cs : List Char) :
    ∃ marked, WritesExponent (scanExponent cs).1 marked ∧ cs = marked ++ (scanExponent cs).2 := by
  have hunread : ∃ marked, WritesExponent 0 marked ∧ cs = marked ++ cs := ⟨[], .none, rfl⟩
  cases cs with
  | nil => exact hunread
  | cons mark afterMark =>
      obtain ⟨sign, writesSign, hsign⟩ := scanSign_spells afterMark
      unfold scanExponent
      dsimp only
      generalize scanSign afterMark = scanned at *
      obtain ⟨negative, afterSign⟩ := scanned
      split
      · rename_i isMark
        cases hempty : (afterSign.takeWhile Char.isDigit).isEmpty with
        | true => exact hunread
        | false =>
            refine ⟨mark :: (sign ++ afterSign.takeWhile Char.isDigit),
              .marked isMark writesSign (isRow_takeWhile hempty), ?_⟩
            rw [List.cons_append, List.append_assoc]
            exact congrArg (mark :: ·)
              (hsign.trans (congrArg (sign ++ ·) List.takeWhile_append_dropWhile.symm))
      · exact hunread

theorem length_scanExponent_le (cs : List Char) : (scanExponent cs).2.length ≤ cs.length := by
  obtain ⟨marked, _, hcs⟩ := scanExponent_spells cs
  have hlength := congrArg List.length hcs
  rw [List.length_append] at hlength
  omega

/-- An exponent is read at least as far as it is written. -/
theorem length_scanExponent_append_le {exponent : Int} {marked : List Char}
    (h : WritesExponent exponent marked) (rest : List Char) :
    (scanExponent (marked ++ rest)).2.length ≤ rest.length := by
  cases h with
  | none => exact length_scanExponent_le rest
  | @marked mark negative sign digits isMark writesSign row =>
      rw [List.cons_append, List.append_assoc, scanExponent, if_pos isMark,
        scanSign_append writesSign (row.forall_head?_append not_sign_of_isDigit rest)]
      dsimp only
      rw [row.takeWhile_append_isEmpty, if_neg Bool.false_ne_true]
      exact length_dropWhile_append_le row.isDigit rest

theorem scanExponent_of_writes {exponent : Int} {w : List Char}
    (h : WritesExponent exponent w) : scanExponent w = (exponent, []) := by
  cases h with
  | none => rfl
  | @marked mark negative sign digits isMark writesSign row =>
      have hhead := row.forall_head?_append not_sign_of_isDigit []
      rw [List.append_nil] at hhead
      rw [scanExponent]
      dsimp only
      rw [if_pos isMark, scanSign_append writesSign hhead]
      dsimp only
      rw [List.takeWhile_eq_self_iff.mpr row.isDigit, List.dropWhile_eq_nil_iff.mpr row.isDigit,
        row.isEmpty_eq_false, if_neg Bool.false_ne_true]
      rfl

/-! ## Digits and the point -/

theorem scanFraction_point {whole afterPoint : List Char}
    (h : (whole.isEmpty && (afterPoint.takeWhile Char.isDigit).isEmpty) = false) :
    scanFraction whole ('.' :: afterPoint) =
      (afterPoint.takeWhile Char.isDigit, afterPoint.dropWhile Char.isDigit) := by
  rw [scanFraction, h, if_neg Bool.false_ne_true]

/-- Either no point is read, or a point with digits on one side of it. -/
theorem scanFraction_cases (whole cs : List Char) :
    scanFraction whole cs = ([], cs) ∨
      ∃ afterPoint, cs = '.' :: afterPoint ∧
        (whole.isEmpty && (afterPoint.takeWhile Char.isDigit).isEmpty) = false := by
  unfold scanFraction
  split
  · rename_i afterPoint
    by_cases h : (whole.isEmpty && (afterPoint.takeWhile Char.isDigit).isEmpty) = true
    · exact .inl (if_pos h)
    · exact .inr ⟨afterPoint, rfl, Bool.eq_false_iff.mpr h⟩
  · exact .inl rfl

theorem length_scanFraction_le (whole cs : List Char) :
    (scanFraction whole cs).2.length ≤ cs.length := by
  rcases scanFraction_cases whole cs with hunread | ⟨afterPoint, rfl, hsome⟩
  · rw [hunread]
  · rw [scanFraction_point hsome]
    exact ((List.dropWhile_sublist Char.isDigit).trans (List.sublist_cons_self '.' _)).length_le

theorem scanFraction_spells {whole : List Char} (hwhole : ∀ c ∈ whole, c.isDigit = true)
    (cs : List Char) (h : (whole.isEmpty && (scanFraction whole cs).1.isEmpty) = false) :
    ∃ digits, SpellsDigits whole (scanFraction whole cs).1 digits ∧
      whole ++ cs = digits ++ (scanFraction whole cs).2 := by
  have hrow : whole.isEmpty = false → IsRow whole :=
    fun hempty => ⟨List.isEmpty_eq_false_iff.mp hempty, hwhole⟩
  rcases scanFraction_cases whole cs with hunread | ⟨afterPoint, rfl, hsome⟩
  · rw [hunread, List.isEmpty_nil, Bool.and_true] at h
    rw [hunread]
    exact ⟨whole, .whole (hrow h), rfl⟩
  · have hsplit : afterPoint =
        afterPoint.takeWhile Char.isDigit ++ afterPoint.dropWhile Char.isDigit :=
      List.takeWhile_append_dropWhile.symm
    rw [scanFraction_point hsome]
    cases hempty : whole.isEmpty with
    | true =>
        rw [hempty, Bool.true_and] at hsome
        obtain rfl := List.isEmpty_iff.mp hempty
        exact ⟨_, .behind (isRow_takeWhile hsome), congrArg ('.' :: ·) hsplit⟩
    | false =>
        refine ⟨_, .point (hrow hempty) fun c hc => List.mem_takeWhile_imp hc, ?_⟩
        rw [List.append_assoc]
        exact congrArg (whole ++ '.' :: ·) hsplit

/-! ## Numerals -/

/-- What the digits at the front and the digits behind the point have to be for a numeral to be
read, and what is left behind it. -/
theorem scan_eq {cs whole fraction afterFraction : List Char}
    (hwhole : cs.takeWhile Char.isDigit = whole)
    (hfraction : scanFraction whole (cs.dropWhile Char.isDigit) = (fraction, afterFraction))
    (h : (whole.isEmpty && fraction.isEmpty) = false) :
    scan cs =
      some (⟨whole, fraction, (scanExponent afterFraction).1⟩, (scanExponent afterFraction).2) := by
  rw [scan]
  dsimp only
  rw [hwhole, hfraction]
  dsimp only
  rw [h, if_neg Bool.false_ne_true]

/-- What is read spells the numeral. -/
theorem spells_of_scan {cs rest : List Char} {n : Numeral} (h : scan cs = some (n, rest)) :
    ∃ w, Spells n w ∧ cs = w ++ rest := by
  have hwhole : ∀ c ∈ cs.takeWhile Char.isDigit, c.isDigit = true :=
    fun c hc => List.mem_takeWhile_imp hc
  have hspells := scanFraction_spells hwhole (cs.dropWhile Char.isDigit)
  rw [List.takeWhile_append_dropWhile] at hspells
  rw [scan] at h
  dsimp only at h
  generalize scanFraction (cs.takeWhile Char.isDigit) (cs.dropWhile Char.isDigit) = scanned at *
  obtain ⟨fraction, afterFraction⟩ := scanned
  dsimp only at h hspells
  cases hempty : (cs.takeWhile Char.isDigit).isEmpty && fraction.isEmpty with
  | true =>
      rw [hempty, if_pos rfl] at h
      cases h
  | false =>
      rw [hempty, if_neg Bool.false_ne_true] at h
      cases h
      obtain ⟨digits, spellsDigits, hdigits⟩ := hspells hempty
      obtain ⟨marked, writesExponent, hmarked⟩ := scanExponent_spells afterFraction
      refine ⟨digits ++ marked, .mk spellsDigits writesExponent, ?_⟩
      rw [List.append_assoc, ← hmarked, hdigits]

theorem scan_point {whole afterPoint : List Char} (hwhole : ∀ c ∈ whole, c.isDigit = true)
    (h : (whole.isEmpty && (afterPoint.takeWhile Char.isDigit).isEmpty) = false) :
    scan (whole ++ '.' :: afterPoint) =
      some (⟨whole, afterPoint.takeWhile Char.isDigit,
        (scanExponent (afterPoint.dropWhile Char.isDigit)).1⟩,
        (scanExponent (afterPoint.dropWhile Char.isDigit)).2) := by
  have hpoint : ∀ c ∈ ('.' :: afterPoint).head?, c.isDigit = false := by
    rintro _ ⟨⟩
    rfl
  refine scan_eq (Text.takeWhile_append_stopped hwhole hpoint) ?_ h
  rw [Text.dropWhile_append_stopped hwhole hpoint, scanFraction_point h]

/-- Digits are read in whole where neither a digit nor a point comes next. -/
theorem scan_of_spellsDigits {whole fraction digits tail : List Char}
    (h : SpellsDigits whole fraction digits)
    (htail : ∀ c ∈ tail.head?, c.isDigit = false ∧ c ≠ '.') :
    scan (digits ++ tail) =
      some (⟨whole, fraction, (scanExponent tail).1⟩, (scanExponent tail).2) := by
  have hdigit : ∀ c ∈ tail.head?, c.isDigit = false := fun c hc => (htail c hc).1
  cases h with
  | whole row =>
      refine scan_eq (Text.takeWhile_append_stopped row.isDigit hdigit) ?_ ?_
      · rw [Text.dropWhile_append_stopped row.isDigit hdigit]
        rcases scanFraction_cases whole tail with hunread | ⟨afterPoint, rfl, _⟩
        · exact hunread
        · exact absurd rfl (htail '.' rfl).2
      · rw [row.isEmpty_eq_false, Bool.false_and]
  | point row isDigit =>
      rw [List.append_assoc, List.cons_append, scan_point row.isDigit,
        Text.takeWhile_append_stopped isDigit hdigit, Text.dropWhile_append_stopped isDigit hdigit]
      rw [row.isEmpty_eq_false, Bool.false_and]
  | behind row =>
      have hread := scan_point (List.forall_mem_nil _) (row.takeWhile_append_isEmpty tail)
      rw [Text.takeWhile_append_stopped row.isDigit hdigit,
        Text.dropWhile_append_stopped row.isDigit hdigit] at hread
      exact hread

/-- Whatever comes next, digits are read at least as far as they are spelled. -/
theorem scan_spellsDigits_append {whole fraction digits : List Char}
    (h : SpellsDigits whole fraction digits) (rest : List Char) :
    ∃ n left, scan (digits ++ rest) = some (n, left) ∧ left.length ≤ rest.length := by
  cases h with
  | whole row =>
      have hbehind := length_scanFraction_le ((whole ++ rest).takeWhile Char.isDigit)
        ((whole ++ rest).dropWhile Char.isDigit)
      generalize hscanned : scanFraction ((whole ++ rest).takeWhile Char.isDigit)
        ((whole ++ rest).dropWhile Char.isDigit) = scanned at hbehind
      refine ⟨_, _, scan_eq rfl hscanned ?_, ?_⟩
      · rw [row.takeWhile_append_isEmpty, Bool.false_and]
      · exact (length_scanExponent_le scanned.2).trans
          (hbehind.trans (length_dropWhile_append_le row.isDigit rest))
  | point row isDigit =>
      rw [List.append_assoc]
      refine ⟨_, _, scan_point row.isDigit ?_, ?_⟩
      · rw [row.isEmpty_eq_false, Bool.false_and]
      · exact (length_scanExponent_le _).trans (length_dropWhile_append_le isDigit rest)
  | behind row =>
      exact ⟨_, _, scan_point (List.forall_mem_nil _) (row.takeWhile_append_isEmpty rest),
        (length_scanExponent_le _).trans (length_dropWhile_append_le row.isDigit rest)⟩

/-- What is read is as long as any spelling that stands there. -/
theorem scan_spells_append {n : Numeral} {w : List Char} (h : Spells n w) (rest : List Char) :
    ∃ m left, scan (w ++ rest) = some (m, left) ∧ left.length ≤ rest.length := by
  cases h with
  | @mk whole fraction exponent digits marked spellsDigits writesExponent =>
      cases hmarked : marked with
      | nil =>
          rw [List.append_nil]
          exact scan_spellsDigits_append spellsDigits rest
      | cons mark more =>
          have htail : ∀ c ∈ (marked ++ rest).head?, c.isDigit = false ∧ c ≠ '.' := by
            have hmark := writesExponent.forall_head? (P := fun c => c.isDigit = false ∧ c ≠ '.')
              (by decide)
            rw [hmarked] at hmark ⊢
            exact hmark
          rw [← hmarked, List.append_assoc, scan_of_spellsDigits spellsDigits htail]
          exact ⟨_, _, rfl, length_scanExponent_append_le writesExponent rest⟩

/-- A numeral that is spelled is read as far as it goes. -/
theorem scan_of_spells {n : Numeral} {w : List Char} (h : Spells n w) : scan w = some (n, []) := by
  cases h with
  | mk spellsDigits writesExponent =>
      rw [scan_of_spellsDigits spellsDigits (writesExponent.forall_head? (by decide)),
        scanExponent_of_writes writesExponent]

/-- A numeral that is spelled is read back. -/
theorem read?_of_spells {n : Numeral} {w : List Char} (h : Spells n w) : read? w = some n := by
  rw [read?, scan_of_spells h]

/-- A numeral that is written out is read back. -/
theorem read?_of_writes {n : Numeral} {w : List Char} (h : Writes n w) : read? w = some n :=
  read?_of_spells h.spells

end Numeral
end ComponentMarkup
