import ComponentMarkup.Text.Case

/-!
# Texts in lower case

Lower-casing leaves small ASCII characters alone and never writes a capital
ASCII letter.  What it writes is in lower case already: doing it twice is doing it
once.  It does not depend on the case of the ASCII letters it reads.
-/

namespace ComponentMarkup
namespace Text

/-!
# The table of runs
-/

/-- Whether a run moves a code point. -/
def CaseRun.Covers (run : CaseRun) (code : Nat) : Prop :=
  run.first ≤ code ∧ code ≤ run.last ∧ (code - run.first) % run.step = 0

theorem applyRuns_cases (runs : List CaseRun) (code : Nat) :
    applyRuns runs code = code ∨
      ∃ run ∈ runs, run.Covers code ∧ applyRuns runs code = (code + run.shift).toNat := by
  induction runs with
  | nil => exact Or.inl rfl
  | cons run rest ih =>
      rw [applyRuns]
      by_cases hfirst : code < run.first
      · rw [if_pos hfirst]
        exact Or.inl rfl
      · rw [if_neg hfirst]
        by_cases hcovered : code ≤ run.last ∧ (code - run.first) % run.step = 0
        · rw [if_pos hcovered]
          exact Or.inr ⟨run, List.mem_cons_self, ⟨Nat.le_of_not_lt hfirst, hcovered⟩, rfl⟩
        · rw [if_neg hcovered]
          rcases ih with hsame | ⟨found, hmem, hcovers, heq⟩
          · exact Or.inl hsame
          · exact Or.inr ⟨found, List.mem_cons_of_mem run hmem, hcovers, heq⟩

theorem lowerRuns_beyond_capitals : ∀ run ∈ lowerRuns, 90 < run.first + run.shift := by
  decide +kernel

theorem applyRuns_lowerRuns_beyond_capitals {code : Nat} (h : 90 < code) :
    90 < applyRuns lowerRuns code := by
  rcases applyRuns_cases lowerRuns code with hsame | ⟨run, hmem, ⟨hle, -⟩, heq⟩
  · rw [hsame]
    exact h
  · have hrun := lowerRuns_beyond_capitals run hmem
    rw [heq]
    omega

/-!
# Capital letters
-/

theorem isUpper_iff (c : Char) : c.isUpper = true ↔ 65 ≤ c.toNat ∧ c.toNat ≤ 90 :=
  decide_eq_true_iff

theorem toNat_ofNat_cases (code : Nat) :
    (Char.ofNat code).toNat = code ∨ (Char.ofNat code).toNat = 0 := by
  by_cases hvalid : code.isValidChar
  · exact Or.inl (congrArg Char.toNat (dif_pos hvalid))
  · exact Or.inr (congrArg Char.toNat (dif_neg hvalid))

theorem toNat_toLower_of_isUpper {c : Char} (h : c.isUpper = true) :
    c.toLower.toNat = c.toNat + 32 := by
  have hcapital := (isUpper_iff c).mp h
  have hrange : 'A'.val ≤ c.val ∧ c.val ≤ 'Z'.val := hcapital
  unfold Char.toLower
  rw [dif_pos hrange]
  have hmoved : (c.val + ('a'.val - 'A'.val)).toNat = c.val.toNat + 32 := by
    have hhigh : c.val.toNat ≤ 90 := hcapital.2
    rw [UInt32.toNat_add, show ('a'.val - 'A'.val).toNat = 32 by decide]
    exact Nat.mod_eq_of_lt (by omega)
  exact hmoved

theorem toLower_of_not_isUpper {c : Char} (h : c.isUpper = false) : c.toLower = c := by
  unfold Char.toLower
  rw [dif_neg]
  intro hcapital
  rw [Bool.eq_false_iff] at h
  exact h ((isUpper_iff c).mpr hcapital)

theorem isUpper_toLower (c : Char) : c.toLower.isUpper = false := by
  cases hcapital : c.isUpper with
  | false => rw [toLower_of_not_isUpper hcapital, hcapital]
  | true =>
      rw [Bool.eq_false_iff]
      intro hupper
      rw [isUpper_iff, toNat_toLower_of_isUpper hcapital] at hupper
      rw [isUpper_iff] at hcapital
      omega

theorem isAscii_toLower {c : Char} (h : isAscii c = true) : isAscii c.toLower = true := by
  cases hcapital : c.isUpper with
  | false => rw [toLower_of_not_isUpper hcapital, h]
  | true =>
      rw [isAscii, decide_eq_true_eq, toNat_toLower_of_isUpper hcapital]
      rw [isUpper_iff] at hcapital
      omega

theorem isUpper_of_mem_lowerChar {c d : Char} (h : d ∈ lowerChar c) : d.isUpper = false := by
  unfold lowerChar at h
  split at h
  · rw [List.mem_singleton.mp h]
    exact isUpper_toLower c
  · rename_i hascii
    split at h
    · simp only [List.mem_cons, List.not_mem_nil, or_false] at h
      rcases h with rfl | rfl <;> decide
    · rw [List.mem_singleton.mp h, Bool.eq_false_iff]
      intro hupper
      rw [isUpper_iff] at hupper
      have hbeyond : 90 < applyRuns lowerRuns c.toNat := by
        apply applyRuns_lowerRuns_beyond_capitals
        simp only [isAscii, decide_eq_true_eq] at hascii
        omega
      rcases toNat_ofNat_cases (applyRuns lowerRuns c.toNat) with hcode | hcode <;> omega

theorem isUpper_of_mem_lowerBetween {before after : List Char} {c d : Char}
    (h : d ∈ lowerBetween before c after) : d.isUpper = false := by
  unfold lowerBetween at h
  split at h
  · split at h <;> rw [List.mem_singleton.mp h] <;> decide
  · exact isUpper_of_mem_lowerChar h

theorem exists_mem_lowerBetween {before cs : List Char} {d : Char}
    (h : d ∈ lowercaseOnto before [] cs) :
    ∃ earlier c after, d ∈ lowerBetween earlier c after := by
  induction cs generalizing before with
  | nil => cases h
  | cons c after ih =>
      rw [lowercaseOnto_cons] at h
      rcases List.mem_append.mp h with hfirst | hrest
      · exact ⟨before, c, after, hfirst⟩
      · exact ih hrest

/-- A text in lower case has no capital ASCII letter. -/
theorem isUpper_of_mem_lowercase {s : String} {d : Char} (h : d ∈ (lowercase s).toList) :
    d.isUpper = false := by
  rw [lowercase, String.toList_ofList] at h
  obtain ⟨_, _, _, hmem⟩ := exists_mem_lowerBetween h
  exact isUpper_of_mem_lowerBetween hmem

/-!
# Texts that are in lower case already
-/

theorem lowerBetween_of_not_isUpper {c : Char} (before after : List Char)
    (hascii : isAscii c = true) (hupper : c.isUpper = false) :
    lowerBetween before c after = [c] := by
  unfold lowerBetween
  rw [if_neg]
  · rw [lowerChar, if_pos hascii, toLower_of_not_isUpper hupper]
  · rintro rfl
    cases hascii

/-- Characters that stay what they are in any text make up a text that stays what it is. -/
theorem lowercaseOnto_of_settled {cs : List Char}
    (h : ∀ c ∈ cs, ∀ before after, lowerBetween before c after = [c]) (before : List Char) :
    lowercaseOnto before [] cs = cs := by
  induction cs generalizing before with
  | nil => rfl
  | cons c after ih =>
      rw [lowercaseOnto_cons, h c List.mem_cons_self,
        ih (fun d hd => h d (List.mem_cons_of_mem c hd))]
      rfl

/-- Lower-casing leaves a text of ASCII characters without capitals as it is. -/
theorem lowercase_of_not_isUpper {s : String}
    (h : ∀ c ∈ s.toList, isAscii c = true ∧ c.isUpper = false) : lowercase s = s := by
  have hsettled : ∀ c ∈ s.toList, ∀ before after, lowerBetween before c after = [c] :=
    fun c hc before after => lowerBetween_of_not_isUpper before after (h c hc).1 (h c hc).2
  rw [lowercase, lowercaseOnto_of_settled hsettled, String.ofList_toList]

/-!
# Lower-casing twice
-/

/-- Whether runs in ascending order leave the code points from `low` to `high` alone, of
which there is only every second one if they `alternate`. -/
def leaveAlone (low high : Nat) (alternate : Bool) : List CaseRun → Bool
  | [] => true
  | run :: rest =>
      bif high.blt run.first then true
      else
        (run.last.blt low ||
          (alternate && run.step.beq 2 && ((low + run.first) % 2).beq 1)) &&
            leaveAlone low high alternate rest

theorem applyRuns_of_leaveAlone {low high code : Nat} {alternate : Bool} {runs : List CaseRun}
    (h : leaveAlone low high alternate runs = true) (hlow : low ≤ code) (hhigh : code ≤ high)
    (halternate : alternate = true → code % 2 = low % 2) : applyRuns runs code = code := by
  induction runs with
  | nil => rfl
  | cons run rest ih =>
      rw [leaveAlone] at h
      rw [applyRuns]
      by_cases hbefore : high < run.first
      · rw [if_pos (Nat.lt_of_le_of_lt hhigh hbefore)]
      · have hblt : high.blt run.first = false := by
          rw [Bool.eq_false_iff, ne_eq, Nat.blt_eq]
          exact hbefore
        rw [hblt, cond_false, Bool.and_eq_true] at h
        have huncovered : ¬ (code ≤ run.last ∧ (code - run.first) % run.step = 0) ∨
            code < run.first := by
          simp only [Bool.or_eq_true, Bool.and_eq_true, Nat.blt_eq, Nat.beq_eq] at h
          rcases h.1 with hbehind | ⟨⟨hsecond, hstep⟩, hparity⟩
          · omega
          · have hsame := halternate hsecond
            rw [hstep]
            omega
        split
        · rfl
        · rename_i hnotBefore
          rw [if_neg (huncovered.resolve_right hnotBefore), ih h.2]

/-- The images of a run, of which there is only every second one where the run has steps. -/
def CaseRun.imagesLeftAlone (run : CaseRun) (runs : List CaseRun) : Bool :=
  leaveAlone (run.first + run.shift).toNat (run.last + run.shift).toNat
    (run.step.beq 2 || run.first.beq run.last) runs

theorem lowerRuns_leaveAlone : ∀ run ∈ lowerRuns, run.imagesLeftAlone lowerRuns = true := by
  decide +kernel

theorem applyRuns_lowerRuns_lowerRuns (code : Nat) :
    applyRuns lowerRuns (applyRuns lowerRuns code) = applyRuns lowerRuns code := by
  rcases applyRuns_cases lowerRuns code with hsame | ⟨run, hmem, ⟨hfirst, hlast, hstep⟩, heq⟩
  · rw [hsame, hsame]
  · have hpositive := lowerRuns_beyond_capitals run hmem
    rw [heq]
    apply applyRuns_of_leaveAlone (lowerRuns_leaveAlone run hmem)
    · omega
    · omega
    · intro halternate
      rw [Bool.or_eq_true, Nat.beq_eq, Nat.beq_eq] at halternate
      rcases halternate with htwo | hone
      · rw [htwo] at hstep
        omega
      · omega

theorem lowerRuns_avoid_dotted : ∀ run ∈ lowerRuns,
    run.last + run.shift < 0x130 ∨ 0x130 < run.first + run.shift := by
  decide +kernel

theorem applyRuns_lowerRuns_ne_dotted {code : Nat} (h : code ≠ 0x130) :
    applyRuns lowerRuns code ≠ 0x130 := by
  rcases applyRuns_cases lowerRuns code with hsame | ⟨run, hmem, ⟨hfirst, hlast, -⟩, heq⟩
  · rw [hsame]
    exact h
  · have havoids := lowerRuns_avoid_dotted run hmem
    omega

/-- What becomes of a character is in lower case, in whatever text it stands. -/
theorem lowerBetween_of_mem_lowerChar {c d : Char} (h : d ∈ lowerChar c)
    (before after : List Char) : lowerBetween before d after = [d] := by
  by_cases hascii : isAscii d = true
  · exact lowerBetween_of_not_isUpper before after hascii (isUpper_of_mem_lowerChar h)
  · unfold lowerChar at h
    split at h
    · rename_i hc
      rw [List.mem_singleton.mp h] at hascii
      exact absurd (isAscii_toLower hc) hascii
    · split at h
      · simp only [List.mem_cons, List.not_mem_nil, or_false] at h
        rcases h with rfl | rfl
        · exact absurd rfl hascii
        · rfl
      · rename_i hdotted
        have hd := List.mem_singleton.mp h
        have hcode : d.toNat = applyRuns lowerRuns c.toNat := by
          rcases toNat_ofNat_cases (applyRuns lowerRuns c.toNat) with hsame | hzero
          · rw [hd, hsame]
          · rw [← hd] at hzero
            refine absurd ?_ hascii
            rw [isAscii, decide_eq_true_eq, hzero]
            decide
        have hsettled : applyRuns lowerRuns d.toNat = d.toNat := by
          rw [hcode, applyRuns_lowerRuns_lowerRuns]
        have hsigma : d ≠ 'Σ' := by
          rintro rfl
          revert hsettled
          decide +kernel
        have hdottedImage : d ≠ 'İ' := by
          intro hsame
          have hc : c.toNat ≠ 0x130 := fun hc => hdotted (Char.toNat_inj.mp hc)
          apply applyRuns_lowerRuns_ne_dotted hc
          rw [← hcode, hsame]
          rfl
        rw [lowerBetween, if_neg hsigma, lowerChar, if_neg hascii, if_neg hdottedImage, hsettled,
          Char.ofNat_toNat]

theorem lowerBetween_of_mem_lowerBetween {before after : List Char} {c d : Char}
    (h : d ∈ lowerBetween before c after) (others more : List Char) :
    lowerBetween others d more = [d] := by
  have hfinal : 'ς' ∈ lowerChar 'ς' := by decide +kernel
  have hsmall : 'σ' ∈ lowerChar 'σ' := by decide +kernel
  rw [lowerBetween] at h
  split at h
  · split at h
    · rw [List.mem_singleton.mp h]
      exact lowerBetween_of_mem_lowerChar hfinal others more
    · rw [List.mem_singleton.mp h]
      exact lowerBetween_of_mem_lowerChar hsmall others more
  · exact lowerBetween_of_mem_lowerChar h others more

/-- A text in lower case stays as it is. -/
theorem lowercase_lowercase (s : String) : lowercase (lowercase s) = lowercase s := by
  have hsettled : ∀ d ∈ lowercaseOnto [] [] s.toList,
      ∀ before after, lowerBetween before d after = [d] := by
    intro d hd before after
    obtain ⟨_, _, _, hmem⟩ := exists_mem_lowerBetween hd
    exact lowerBetween_of_mem_lowerBetween hmem before after
  rw [lowercase, lowercase, String.toList_ofList, lowercaseOnto_of_settled hsettled]

/-!
# Texts that differ in the case of ASCII letters
-/

/-- The ASCII letters `A` to `Z`. -/
def capitals : List Char :=
  (List.range 26).map fun place => Char.ofNat (65 + place)

theorem mem_capitals_of_isUpper {c : Char} (h : c.isUpper = true) : c ∈ capitals := by
  rw [isUpper_iff] at h
  have hcode : 65 + (c.toNat - 65) = c.toNat := by omega
  refine List.mem_map.mpr ⟨c.toNat - 65, ?_, ?_⟩
  · rw [List.mem_range]
    omega
  · rw [hcode, Char.ofNat_toNat]

/-- What is the same for every capital and its small letter does not depend on the case of
ASCII letters. -/
theorem apply_toLower {α : Type} {f : Char → α}
    (h : capitals.map (f ∘ Char.toLower) = capitals.map f) (c : Char) : f c.toLower = f c := by
  cases hupper : c.isUpper with
  | true => exact List.map_inj_left.mp h c (mem_capitals_of_isUpper hupper)
  | false => rw [toLower_of_not_isUpper hupper]

theorem isCased_toLower (c : Char) : isCased c.toLower = isCased c :=
  apply_toLower (by decide +kernel) c

theorem isCaseIgnorable_toLower (c : Char) : isCaseIgnorable c.toLower = isCaseIgnorable c :=
  apply_toLower (by decide +kernel) c

theorem lowerChar_toLower (c : Char) : lowerChar c.toLower = lowerChar c :=
  apply_toLower (by decide +kernel) c

theorem meetsCased_map_toLower (cs : List Char) :
    meetsCased (cs.map Char.toLower) = meetsCased cs := by
  have hignorable : isCaseIgnorable ∘ Char.toLower = isCaseIgnorable :=
    funext isCaseIgnorable_toLower
  unfold meetsCased
  rw [List.dropWhile_map, hignorable]
  cases cs.dropWhile isCaseIgnorable with
  | nil => rfl
  | cons c rest => exact isCased_toLower c

theorem lowerBetween_map_toLower (before : List Char) (c : Char) (after : List Char) :
    lowerBetween (before.map Char.toLower) c.toLower (after.map Char.toLower) =
      lowerBetween before c after := by
  have hsigma : decide (c.toLower = 'Σ') = decide (c = 'Σ') :=
    apply_toLower (f := fun d => decide (d = 'Σ')) (by decide +kernel) c
  rw [decide_eq_decide] at hsigma
  simp only [lowerBetween, hsigma, meetsCased_map_toLower, lowerChar_toLower]

theorem lowercaseOnto_map_toLower (before cs : List Char) :
    lowercaseOnto (before.map Char.toLower) [] (cs.map Char.toLower) =
      lowercaseOnto before [] cs := by
  induction cs generalizing before with
  | nil => rfl
  | cons c after ih =>
      have hafter := ih (c :: before)
      rw [List.map_cons] at hafter
      rw [List.map_cons, lowercaseOnto_cons, lowercaseOnto_cons, lowerBetween_map_toLower, hafter]

/-- Lower-casing does not depend on the case of ASCII letters. -/
theorem lowercase_map_toLower (cs : List Char) :
    lowercase (String.ofList (cs.map Char.toLower)) = lowercase (String.ofList cs) := by
  rw [lowercase, lowercase, String.toList_ofList, String.toList_ofList]
  exact congrArg String.ofList (lowercaseOnto_map_toLower [] cs)

end Text
end ComponentMarkup
