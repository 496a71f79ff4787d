import ComponentMarkup.Proofs.Template.Filling

/-!
# The scan for codes

A template with its arguments in place is scanned once from the left.  Where it goes on
with the mark of a code and some code on one line in front of a closing brace, the
shortest such code is taken and the scan goes on behind that brace.  Anywhere else one
character is copied.  Values are written without being scanned.
-/

namespace ComponentMarkup
namespace Template

/-!
# Codes at a place of the scan
-/

/-- A text that goes on with the mark of a code, some code on one line and a closing
brace. -/
structure StartsWithCode (cs code after : List Char) : Prop where
  text : cs = codeMark ++ code ++ '\x7d' :: after
  nonempty : code ≠ []
  line : '\n' ∉ code

/-- The code that is taken is the shortest with which the text goes on. -/
structure ShortestCode (cs code after : List Char) : Prop
    extends StartsWithCode cs code after where
  shortest : ∀ other rest, StartsWithCode cs other rest → code.length ≤ other.length

variable {cs code after other rest : List Char}

theorem startsWithCode_of_codeAtFront? (h : codeAtFront? cs = some (code, after)) :
    StartsWithCode cs code after := by
  obtain ⟨htext, c, more, rfl, hfirst, hmore⟩ := codeAtFront?_eq_some_iff.mp h
  constructor
  · exact htext
  · exact List.cons_ne_nil c more
  · intro hline
    rcases List.mem_cons.mp hline with heq | hmem
    · exact hfirst heq.symm
    · exact (continuesCode_iff.mp (hmore _ hmem)).2 rfl

namespace StartsWithCode

/-- Codes at one place that are equally long are the same. -/
theorem eq_of_length_eq (h : StartsWithCode cs code after)
    (hother : StartsWithCode cs other rest) (hlength : code.length = other.length) :
    code = other ∧ after = rest := by
  have htext := h.text.symm.trans hother.text
  rw [List.append_assoc, List.append_assoc, List.append_cancel_left_eq] at htext
  obtain ⟨hcode, hafter⟩ := List.append_inj htext hlength
  exact ⟨hcode, (List.cons.inj hafter).2⟩

/-- The first brace behind the first character ends a code that is no longer. -/
theorem exists_codeAtFront? (h : StartsWithCode cs other rest) :
    ∃ code after, codeAtFront? cs = some (code, after) := by
  obtain ⟨rfl, hnonempty, hline⟩ := h
  cases other with
  | nil => exact absurd rfl hnonempty
  | cons c others =>
      rw [List.mem_cons, not_or] at hline
      obtain ⟨hfirst, hothers⟩ := hline
      have hbrace : '\x7d' ∈ others ++ ['\x7d'] := List.mem_append_right others List.mem_cons_self
      obtain ⟨more, behind, hsplit, hmore⟩ := List.eq_append_cons_of_mem hbrace
      refine ⟨c :: more, behind ++ rest, codeAtFront?_eq_some_iff.mpr ⟨?_, c, more, rfl,
        fun heq => hfirst heq.symm, ?_⟩⟩
      · have hrest := congrArg (· ++ rest) hsplit
        simp only [List.append_assoc, List.cons_append, List.nil_append] at hrest
        simp only [List.append_assoc, List.cons_append, hrest]
      · intro d hd
        rw [continuesCode_iff]
        constructor
        · exact fun heq => hmore (heq ▸ hd)
        · have hmem : d ∈ others ++ ['\x7d'] := hsplit ▸ List.mem_append_left _ hd
          rcases List.mem_append.mp hmem with hinside | hlast
          · exact fun heq => hothers (heq ▸ hinside)
          · rw [List.mem_singleton.mp hlast]
            decide

end StartsWithCode

theorem length_le_of_codeAtFront? (h : codeAtFront? cs = some (code, after))
    (hother : StartsWithCode cs other rest) : code.length ≤ other.length := by
  obtain ⟨htext, c, more, rfl, _, hmore⟩ := codeAtFront?_eq_some_iff.mp h
  obtain ⟨hothertext, hnonempty, _⟩ := hother
  cases other with
  | nil => exact absurd rfl hnonempty
  | cons d others =>
      rw [htext, List.append_assoc, List.append_assoc, List.append_cancel_left_eq] at hothertext
      have hbehind : more ++ '\x7d' :: after = others ++ '\x7d' :: rest :=
        (List.cons.inj hothertext).2
      rw [List.length_cons, List.length_cons]
      apply Nat.succ_le_succ
      -- A shorter code would end at a brace that the longer one has inside.
      refine Nat.le_of_not_lt fun hlt => ?_
      have hends : others ++ ['\x7d'] <+: more ++ '\x7d' :: after := by
        rw [hbehind, List.prefix_append_right_inj, List.cons_prefix_cons]
        exact ⟨rfl, List.nil_prefix⟩
      have hprefix : others ++ ['\x7d'] <+: more := by
        refine List.prefix_of_prefix_length_le hends (List.prefix_append more _) ?_
        rw [List.length_append, List.length_singleton]
        exact hlt
      have hbrace : '\x7d' ∈ more :=
        hprefix.subset (List.mem_append_right others List.mem_cons_self)
      exact (continuesCode_iff.mp (hmore _ hbrace)).1 rfl

theorem shortestCode_iff : ShortestCode cs code after ↔ codeAtFront? cs = some (code, after) := by
  constructor
  · intro h
    obtain ⟨found, behind, hfound⟩ := h.toStartsWithCode.exists_codeAtFront?
    have hstarts := startsWithCode_of_codeAtFront? hfound
    have hlength : code.length = found.length :=
      Nat.le_antisymm (h.shortest found behind hstarts)
        (length_le_of_codeAtFront? hfound h.toStartsWithCode)
    obtain ⟨rfl, rfl⟩ := h.toStartsWithCode.eq_of_length_eq hstarts hlength
    exact hfound
  · intro h
    exact ⟨startsWithCode_of_codeAtFront? h, fun _ _ hother => length_le_of_codeAtFront? h hother⟩

-- The first character of a code can be a brace.
example : ShortestCode "$\x7beval:\x7d + 1\x7d\x7d".toList "\x7d + 1".toList ['\x7d'] := by
  rw [shortestCode_iff]
  decide +kernel

theorem codeAtFront?_eq_none_iff :
    codeAtFront? cs = none ↔ ∀ code after, ¬ StartsWithCode cs code after := by
  constructor
  · intro h code after hstarts
    obtain ⟨found, behind, hfound⟩ := hstarts.exists_codeAtFront?
    rw [h] at hfound
    cases hfound
  · intro h
    cases hfront : codeAtFront? cs with
    | none => rfl
    | some found => exact absurd (startsWithCode_of_codeAtFront? hfront) (h found.1 found.2)

/-!
# Along the scan
-/

/-- One scan of a text: what is copied and what the codes give, up to the first code that
fails. -/
inductive Scans (evaluator : Evaluator) (scope : Scope) :
    List Char → Except Script.EvalError String → Prop where
  | done : Scans evaluator scope [] (.ok "")
  | copy {c : Char} {rest : List Char} {result : Except Script.EvalError String} :
      (∀ code after, ¬ StartsWithCode (c :: rest) code after) →
      Scans evaluator scope rest result →
      Scans evaluator scope (c :: rest) (result.map (String.singleton c ++ ·))
  | value {cs code after : List Char} {value : String}
      {result : Except Script.EvalError String} :
      ShortestCode cs code after →
      evaluator (String.ofList code) scope = .ok value →
      Scans evaluator scope after result →
      Scans evaluator scope cs (result.map (value ++ ·))
  | failure {cs code after : List Char} {cause : Script.EvalError} :
      ShortestCode cs code after →
      evaluator (String.ofList code) scope = .error cause →
      Scans evaluator scope cs (.error cause)

/-- The scan of a text comes to a place, which is what is left of the text there. -/
inductive Visits : List Char → List Char → Prop where
  | here {cs : List Char} : Visits cs cs
  | copy {c : Char} {rest place : List Char} :
      (∀ code after, ¬ StartsWithCode (c :: rest) code after) →
      Visits rest place → Visits (c :: rest) place
  | code {cs code after place : List Char} :
      ShortestCode cs code after → Visits after place → Visits cs place

/-- What holds at the end and is handed on against the scan holds of every text. -/
theorem scanInduction {motive : List Char → Prop} (done : motive [])
    (copy : ∀ c rest, codeAtFront? (c :: rest) = none → motive rest → motive (c :: rest))
    (code : ∀ cs code after, codeAtFront? cs = some (code, after) → motive after → motive cs)
    (cs : List Char) : motive cs := by
  induction hlength : cs.length using Nat.strongRecOn generalizing cs with
  | ind n ih =>
      cases hfront : codeAtFront? cs with
      | some found =>
          have hshorter := length_of_codeAtFront? hfront
          exact code cs found.1 found.2 hfront (ih _ (hlength ▸ hshorter) found.2 rfl)
      | none =>
          cases cs with
          | nil => exact done
          | cons c rest =>
              have hshorter : rest.length < n := hlength ▸ Nat.lt_succ_self rest.length
              exact copy c rest hfront (ih _ hshorter rest rfl)

variable {evaluator : Evaluator} {scope : Scope}

theorem scans_fill (cs : List Char) :
    Scans evaluator scope cs (fill evaluator scope (String.ofList cs)) := by
  induction cs using scanInduction with
  | done =>
      rw [fill_nil]
      exact .done
  | copy c rest hfront ih =>
      rw [fill_cons evaluator scope hfront]
      exact .copy (codeAtFront?_eq_none_iff.mp hfront) ih
  | code cs code after hfront ih =>
      have hcode := shortestCode_iff.mpr hfront
      rw [fill_code evaluator scope hfront]
      cases hvalue : evaluator (String.ofList code) scope with
      | error cause => exact .failure hcode hvalue
      | ok value => exact .value hcode hvalue ih

theorem Scans.fill_eq {result : Except Script.EvalError String}
    (h : Scans evaluator scope cs result) :
    fill evaluator scope (String.ofList cs) = result := by
  induction h with
  | done => exact fill_nil evaluator scope
  | copy hfront _ ih =>
      rw [fill_cons evaluator scope (codeAtFront?_eq_none_iff.mpr hfront), ih]
  | value hcode hvalue _ ih =>
      rw [fill_code evaluator scope (shortestCode_iff.mp hcode), hvalue, ← ih]
      rfl
  | failure hcode hcause =>
      rw [fill_code evaluator scope (shortestCode_iff.mp hcode), hcause]
      rfl

/-- Filling in the codes is that scan. -/
theorem fill_eq_iff_scans {html : String} {result : Except Script.EvalError String} :
    fill evaluator scope html = result ↔ Scans evaluator scope html.toList result := by
  rw [← String.ofList_toList (s := html), String.toList_ofList]
  constructor
  · rintro rfl
    exact scans_fill html.toList
  · exact Scans.fill_eq

/-- Where no code is marked the scan copies the text. -/
theorem scans_of_unmarked {html : String} (h : ¬ codeMark <:+: html.toList) :
    Scans evaluator scope html.toList (.ok html) := by
  rw [← fill_eq_iff_scans, fill, if_neg]
  rwa [Text.contains_iff]

/-!
# The codes of a text
-/

theorem Visits.isSuffix {place : List Char} (h : Visits cs place) : place <:+ cs := by
  induction h with
  | here => exact List.suffix_rfl
  | copy _ _ ih => exact ih.trans (List.suffix_cons _ _)
  | code hcode _ ih =>
      rw [hcode.text]
      exact ih.trans ((List.suffix_cons _ _).trans (List.suffix_append _ _))

/-- The scan of a text finds a code. -/
def Finds (cs code : List Char) : Prop :=
  ∃ place after, Visits cs place ∧ ShortestCode place code after

theorem not_finds_nil : ¬ Finds [] code := by
  rintro ⟨place, after, hplace, hcode⟩
  have hempty := List.suffix_nil.mp hplace.isSuffix
  have htext := hcode.text
  rw [hempty] at htext
  cases htext

theorem finds_cons_iff {c : Char} (h : codeAtFront? (c :: rest) = none) :
    Finds (c :: rest) code ↔ Finds rest code := by
  have hfront := codeAtFront?_eq_none_iff.mp h
  constructor
  · rintro ⟨place, after, hplace, hcode⟩
    cases hplace with
    | here => exact absurd hcode.toStartsWithCode (hfront code after)
    | copy _ hbehind => exact ⟨place, after, hbehind, hcode⟩
    | code hfound _ => exact absurd hfound.toStartsWithCode (hfront _ _)
  · rintro ⟨place, after, hplace, hcode⟩
    exact ⟨place, after, .copy hfront hplace, hcode⟩

theorem finds_iff_of_code (h : codeAtFront? cs = some (code, after)) :
    Finds cs other ↔ other = code ∨ Finds after other := by
  have hfront := shortestCode_iff.mpr h
  constructor
  · rintro ⟨place, behind, hplace, hother⟩
    cases hplace with
    | here =>
        rw [shortestCode_iff, h] at hother
        cases hother
        exact Or.inl rfl
    | copy hnone _ => exact absurd hfront.toStartsWithCode (hnone code after)
    | code hfound hbehind =>
        rw [shortestCode_iff, h] at hfound
        cases hfound
        exact Or.inr ⟨place, behind, hbehind, hother⟩
  · rintro (rfl | ⟨place, behind, hplace, hother⟩)
    · exact ⟨cs, after, .here, hfront⟩
    · exact ⟨place, behind, .code hfront hplace, hother⟩

theorem code_mem_pushLiteral_iff {text : String} {literal : List Char} {pieces : List Piece} :
    .code text ∈ pushLiteral literal pieces ↔ .code text ∈ pieces := by
  cases literal <;> simp [pushLiteral]

theorem code_mem_piecesOnto_iff {text : String} (pieces : List Piece) (literal cs : List Char) :
    .code text ∈ piecesOnto pieces literal cs ↔ .code text ∈ pieces ∨ Finds cs text.toList := by
  fun_induction piecesOnto pieces literal cs with
  | case1 pieces literal => simp [code_mem_pushLiteral_iff, not_finds_nil]
  | case2 pieces literal c rest code after hcode ih =>
      rw [ih, finds_iff_of_code hcode, List.mem_cons, code_mem_pushLiteral_iff, Piece.code.injEq,
        ← String.toList_inj, String.toList_ofList, or_assoc, or_left_comm]
  | case3 pieces literal c rest hcode ih => rw [ih, finds_cons_iff hcode]

/-- The codes among the pieces of a text are those that the scan finds. -/
theorem code_mem_pieces_iff {html text : String} :
    .code text ∈ pieces html ↔ Finds html.toList text.toList := by
  rw [pieces, code_mem_piecesOnto_iff]
  simp

end Template
end ComponentMarkup
