import ComponentMarkup.Proofs.Script.Separators

/-!
# Texts that are read as one name

Such a text is a name between blanks and comments.  Only the last comment can be open, and
an open comment takes in what is written behind the text.
-/

namespace ComponentMarkup
namespace Script

/-- A comment that is not closed. -/
inductive OpenComment : List Char → Prop where
  | line {body} (unbroken : '\n' ∉ body) : OpenComment ('/' :: '/' :: body)
  | block {body} (unclosed : ¬ ['*', '/'] <:+: body) : OpenComment ('/' :: '*' :: body)

/-- A text that is a name with blanks and closed comments around it. -/
inductive Encloses (text name : String) : Prop where
  | mk {before after} (isName : IsName name) (front : IsGap before) (back : IsGap after)
      (toList : text.toList = before ++ (name.toList ++ after))

/-- A text that leaves a comment open behind a name. -/
inductive LeavesOpen (text name : String) : Prop where
  | mk {before after comment} (isName : IsName name) (front : IsGap before)
      (back : IsGap after) (isOpen : OpenComment comment)
      (toList : text.toList = before ++ (name.toList ++ (after ++ comment)))

theorem IsName.encloses {name : String} (h : IsName name) : Encloses name name :=
  .mk h .nil .nil (List.append_nil name.toList).symm

/-! ## Comments -/

/-- A comment is closed by the first star and slash behind its mark. -/
theorem exists_first_close {cs : List Char} (h : ['*', '/'] <:+: cs) :
    ∃ body rest, cs = body ++ '*' :: '/' :: rest ∧ ¬ ['*', '/'] <:+: body := by
  induction cs with
  | nil => cases List.infix_nil.mp h
  | cons c cs ih =>
      by_cases hfront : ['*', '/'] <+: c :: cs
      · obtain ⟨rest, hrest⟩ := hfront
        exact ⟨[], rest, hrest.symm, by decide⟩
      · obtain ⟨body, rest, rfl, hbody⟩ := ih ((List.infix_cons_iff.mp h).resolve_left hfront)
        refine ⟨c :: body, rest, rfl, fun hclosed => ?_⟩
        rcases List.infix_cons_iff.mp hclosed with hstart | hinside
        · exact hfront (hstart.trans (List.prefix_append (c :: body) _))
        · exact hbody hinside

/-- A comment stays open in front of characters that are no slash. -/
theorem not_infix_append {body more : List Char} (h : ¬ ['*', '/'] <:+: body)
    (hmore : '/' ∉ more) : ¬ ['*', '/'] <:+: body ++ more := by
  induction body with
  | nil =>
      intro hclosed
      exact hmore (hclosed.subset (by decide))
  | cons c body ih =>
      rw [List.cons_append, List.infix_cons_iff, not_or]
      constructor
      · intro hclosed
        obtain ⟨rfl, hslash⟩ := List.cons_prefix_cons.mp hclosed
        cases body with
        | nil => exact hmore (hslash.subset List.mem_cons_self)
        | cons d body =>
            obtain ⟨rfl, -⟩ := List.cons_prefix_cons.mp hslash
            exact h (List.prefix_append ['*', '/'] body).isInfix
      · exact ih (mt List.infix_cons h)

/-- An open comment extends to the end. -/
theorem OpenComment.gapSize_eq {cs : List Char} (h : OpenComment cs) :
    gapSize .blanks 0 cs = cs.length := by
  cases h with
  | @line body unbroken =>
      have hbody := gapSize_unbroken unbroken 2 []
      rw [List.append_nil, Nat.add_comm] at hbody
      exact hbody
  | @block body unclosed =>
      obtain ⟨gap, hgap, hbody⟩ := (gapSize_unclosed body [] 2).1 unclosed
      rw [List.append_nil, Nat.add_comm] at hbody
      exact hbody

theorem OpenComment.readings_eq_nil {cs : List Char} (h : OpenComment cs) : readings cs = [] := by
  have hskip : readings (cs ++ []) = readings [] := by
    apply readings_of_gapSize
    rw [List.append_nil, h.gapSize_eq]
    exact (Nat.zero_add cs.length).symm
  rw [List.append_nil, readings_nil] at hskip
  exact hskip

theorem OpenComment.append_semicolon {cs : List Char} (h : OpenComment cs) :
    OpenComment (cs ++ [';']) := by
  cases h with
  | line unbroken => exact .line (by simpa using unbroken)
  | block unclosed => exact .block (not_infix_append unclosed (by decide))

theorem IsGap.noWord {gap : List Char} (h : IsGap gap) :
    ∀ d ∈ gap.head?, continuesWord d = false := by
  cases h with
  | nil => rintro _ ⟨⟩
  | blank isBlank more =>
      rintro _ ⟨⟩
      exact continuesWord_of_isBlank isBlank
  | line unbroken more =>
      rintro _ ⟨⟩
      decide
  | block unclosed more =>
      rintro _ ⟨⟩
      decide

theorem OpenComment.noWord {cs : List Char} (h : OpenComment cs) :
    ∀ d ∈ cs.head?, continuesWord d = false := by
  cases h <;> (rintro _ ⟨⟩; decide)

/-! ## What stands before a token -/

/-- A comment is left open or is closed in front of the rest. -/
theorem comment_cases {mark : Char} (hmark : mark = '/' ∨ mark = '*') (cs : List Char) :
    OpenComment ('/' :: mark :: cs) ∨
      ∃ comment rest, '/' :: mark :: cs = comment ++ rest ∧ rest.length ≤ cs.length ∧
        ∀ gap, IsGap gap → IsGap (comment ++ gap) := by
  rcases hmark with rfl | rfl
  · by_cases hbroken : '\n' ∈ cs
    · obtain ⟨body, rest, rfl, hbody⟩ := List.eq_append_cons_of_mem hbroken
      refine .inr ⟨'/' :: '/' :: (body ++ ['\n']), rest, by simp, by simp; omega,
        fun gap hgap => ?_⟩
      rw [List.cons_append, List.cons_append, List.append_assoc]
      exact .line hbody hgap
    · exact .inl (.line hbroken)
  · by_cases hclosed : ['*', '/'] <:+: cs
    · obtain ⟨body, rest, rfl, hbody⟩ := exists_first_close hclosed
      refine .inr ⟨'/' :: '*' :: (body ++ ['*', '/']), rest, by simp, by simp; omega,
        fun gap hgap => ?_⟩
      rw [List.cons_append, List.cons_append, List.append_assoc]
      exact .block hbody hgap
    · exact .inl (.block hclosed)

/-- Behind a gap the characters end, or a comment is left open, or a token comes next. -/
theorem exists_gap (cs : List Char) :
    ∃ gap rest, cs = gap ++ rest ∧ IsGap gap ∧
      (rest = [] ∨ OpenComment rest ∨
        ∃ c more, rest = c :: more ∧ gapSize .blanks 0 (c :: more) = 0) := by
  -- A comment can have any length, so the induction is on the number of characters.
  induction hlength : cs.length using Nat.strongRecOn generalizing cs with
  | ind length ih =>
      cases cs with
      | nil => exact ⟨[], [], rfl, .nil, .inl rfl⟩
      | cons c more =>
          rw [List.length_cons] at hlength
          by_cases hblank : Text.isBlank c = true
          · obtain ⟨gap, rest, rfl, hgap, hrest⟩ := ih _ (by omega) more rfl
            exact ⟨c :: gap, rest, rfl, .blank hblank hgap, hrest⟩
          · by_cases hcomment : c = '/' ∧ ∃ d ∈ more.head?, d = '/' ∨ d = '*'
            · obtain ⟨rfl, d, hd, hmark⟩ := hcomment
              obtain ⟨cs, rfl⟩ := List.head?_eq_some_iff.mp hd
              rcases comment_cases hmark cs with hopen | ⟨comment, rest, hsplit, hle, hclosed⟩
              · exact ⟨[], _, rfl, .nil, .inr (.inl hopen)⟩
              · rw [List.length_cons] at hlength
                obtain ⟨gap, behind, rfl, hgap, hbehind⟩ := ih _ (by omega) rest rfl
                rw [← List.append_assoc] at hsplit
                exact ⟨comment ++ gap, behind, hsplit, hclosed gap hgap, hbehind⟩
            · have htoken : gapSize .blanks 0 (c :: more) = 0 := by
                by_cases hslash : c = '/'
                · rw [hslash]
                  apply gapSize_slash
                  intro d hd
                  exact not_or.mp fun hmark => hcomment ⟨hslash, d, hd, hmark⟩
                · exact gapSize_of_start (Bool.eq_false_iff.mpr hblank) hslash 0 more
              exact ⟨[], _, rfl, .nil, .inr (.inr ⟨c, more, rfl, htoken⟩)⟩

/-! ## Names -/

/-- What is read as a single identifier starts with it. -/
theorem isName_of_readings {c : Char} {more : List Char} {name : String}
    (htoken : gapSize .blanks 0 (c :: more) = 0)
    (h : readings (c :: more) = [.ok (.identifier name)]) :
    ∃ rest, c :: more = name.toList ++ rest ∧ IsName name ∧ readings rest = [] := by
  have hfirst : (readToken c more).1 = .ok (.identifier name) := by
    have hread := readings_of_readToken htoken (Prod.ext rfl rfl : readToken c more = (_, _))
    rw [h] at hread
    exact (List.cons.inj hread).1.symm
  obtain ⟨hstart, hword, hname⟩ := readToken_eq_identifier hfirst
  have htake : (c :: more).takeWhile continuesWord =
      c :: more.takeWhile continuesWord :=
    List.takeWhile_cons_of_pos (startsWord_continuesWord hstart)
  rw [htake] at hword
  have hreadings : ∀ rest, (∀ d ∈ rest.head?, continuesWord d = false) →
      readings (name.toList ++ rest) = .ok (.identifier name) :: readings rest := by
    intro rest hrest
    have hspan : ∀ d ∈ more.takeWhile continuesWord, continuesWord d = true :=
      List.all_eq_true.mp List.all_takeWhile
    have hread := readings_word hstart hspan hrest
    rw [hword, hname] at hread
    rw [← hread, ← hword, String.toList_ofList]
  have hsplit : c :: more = name.toList ++ more.dropWhile continuesWord := by
    rw [← hword, String.toList_ofList, List.cons_append, List.takeWhile_append_dropWhile]
  have hisName : IsName name := by
    have halone := hreadings [] (by simp)
    rw [List.append_nil, readings_nil] at halone
    exact tokens_eq_iff_readings.mpr halone
  rw [hsplit, hreadings _ Text.stopped_dropWhile] at h
  exact ⟨_, hsplit, hisName, (List.cons.inj h).2⟩

/-- A text that is read as one name encloses it or leaves a comment open behind it. -/
theorem encloses_or_leavesOpen {text name : String}
    (h : tokens text = ([.identifier name], none)) :
    Encloses text name ∨ LeavesOpen text name := by
  have hreadings : readings text.toList = [.ok (.identifier name)] := tokens_eq_iff_readings.mp h
  obtain ⟨before, rest, htext, hbefore, hrest⟩ := exists_gap text.toList
  rw [htext, readings_gap hbefore] at hreadings
  rcases hrest with rfl | hopen | ⟨c, more, rfl, htoken⟩
  · rw [readings_nil] at hreadings
    cases hreadings
  · rw [hopen.readings_eq_nil] at hreadings
    cases hreadings
  · obtain ⟨behind, hsplit, hname, hnothing⟩ := isName_of_readings htoken hreadings
    obtain ⟨after, rest, rfl, hafter, hrest⟩ := exists_gap behind
    rw [hsplit] at htext
    rw [readings_gap hafter] at hnothing
    rcases hrest with rfl | hopen | ⟨d, others, rfl, hnext⟩
    · rw [List.append_nil] at htext
      exact .inl (.mk hname hbefore hafter htext)
    · exact .inr (.mk hname hbefore hafter hopen htext)
    · rw [readings_of_readToken hnext (rfl : readToken d others = (_, _))] at hnothing
      cases hnothing

/-- A closed comment is closed for good, and an open one takes in what is written behind
it. -/
theorem Encloses.not_leavesOpen {text name other : String} (h : Encloses text name) :
    ¬ LeavesOpen text other := by
  intro hopen
  have hclosed : readings (text.toList ++ [';']) = [.ok (.identifier name), .ok .semicolon] := by
    obtain ⟨isName, front, back, toList⟩ := h
    have hstop : ∀ d ∈ (_ ++ [';'] : List Char).head?, continuesWord d = false :=
      Text.forall_head?_append back.noWord fun | _, rfl => rfl
    rw [toList, List.append_assoc, List.append_assoc, readings_gap front,
      readings_name isName hstop, readings_gap back, readings_semicolon, readings_nil]
  have htaken : readings (text.toList ++ [';']) = [.ok (.identifier other)] := by
    obtain ⟨isName, front, back, isOpen, toList⟩ := hopen
    have hstop : ∀ d ∈ (_ ++ (_ ++ [';']) : List Char).head?, continuesWord d = false :=
      Text.forall_head?_append back.noWord isOpen.append_semicolon.noWord
    simp only [toList, List.append_assoc]
    rw [readings_gap front, readings_name isName hstop, readings_gap back,
      isOpen.append_semicolon.readings_eq_nil]
  rw [hclosed] at htaken
  cases htaken

end Script
end ComponentMarkup
