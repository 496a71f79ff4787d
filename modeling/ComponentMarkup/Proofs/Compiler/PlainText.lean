import ComponentMarkup.Proofs.Compiler.Documents

/-!
# Text without components

A text that opens no invocation is its own document, whatever other marks and placeholders
stand in it.  A sequence `![` opens an invocation unless its `!` belongs to a closing
sequence, which is the case just where `]` stands before it.
-/

namespace ComponentMarkup

namespace Markup

/-!
# Where invocations are opened
-/

namespace Token

theorem getLast?_flatMap_source {tokens : List Token} :
    (tokens.flatMap source).getLast? = some ']' ↔ tokens.getLast? = some (.char ']') := by
  rcases List.eq_nil_or_concat tokens with rfl | ⟨before, last, rfl⟩
  · simp
  · cases last <;> simp [source]

/-- A text opens an invocation where `![` does not stand behind `]`. -/
theorem opening_mem_scan_iff {cs : List Char} :
    .opening ∈ scan cs ↔
      ∃ before after, cs = before ++ '!' :: '[' :: after ∧ before.getLast? ≠ some ']' := by
  constructor
  · intro h
    rcases List.append_of_mem h with ⟨left, right, hscan⟩
    have hsettled := settled_scan cs
    have hsource := flatMap_source_scan cs
    rw [hscan] at hsettled hsource
    refine ⟨left.flatMap source, right.flatMap source, ?_, ?_⟩
    · rw [← hsource, List.flatMap_append, List.flatMap_cons]
      rfl
    · intro hlast
      have hborder := (List.isChain_append.mp hsettled).2.2
      have hclash : (Token.char ']', Token.opening) ∉ clashes :=
        hborder _ (getLast?_flatMap_source.mp hlast) _ rfl
      exact hclash (by decide)
  · rintro ⟨before, after, rfl, hlast⟩
    have hapart : Apart before ('!' :: '[' :: after) := by
      intro c hc d hd hjoins
      cases hd
      rw [joins_exclamation hjoins, ← getLast?_flatMap_source, flatMap_source_scan] at hc
      exact hlast hc
    rw [scan_append hapart, scan_opening]
    exact List.mem_append_right _ List.mem_cons_self

end Token

/-!
# Reading without invocations
-/

variable {registry : Registry} {limit : Nat} {tokens : List Token}

/-- Outside of all invocations a separator or a closing sequence is text. -/
theorem exists_step_of_ne_opening {t : Token} (h : t ≠ .opening) (current : List Statement) :
    ∃ next, ParseState.Step registry limit ⟨current, [], none⟩ t ⟨next, [], none⟩ := by
  cases t with
  | char c => exact ⟨_, ParseState.Step.letter current [] c⟩
  | opening => exact absurd rfl h
  | separator => exact ⟨_, ParseState.Step.stray current .separator (Or.inl rfl)⟩
  | closing => exact ⟨_, ParseState.Step.stray current .closing (Or.inr rfl)⟩

theorem exists_run_of_unopened (h : .opening ∉ tokens) (current : List Statement) :
    ∃ after, tokens.foldlM (ParseState.step registry limit) ⟨current, [], none⟩ =
      .ok ⟨after, [], none⟩ := by
  induction tokens generalizing current with
  | nil => exact ⟨current, rfl⟩
  | cons t rest ih =>
      rcases List.ne_and_not_mem_of_not_mem_cons h with ⟨hfirst, hrest⟩
      rcases exists_step_of_ne_opening hfirst.symm current with ⟨next, hstep⟩
      rcases ih hrest next with ⟨after, hafter⟩
      exact ⟨after, ParseState.foldlM_cons_eq_ok.mpr ⟨_, hstep, hafter⟩⟩

theorem invokedNames_of_unopened (h : .opening ∉ tokens) : invokedNames tokens = [] := by
  induction tokens with
  | nil => rfl
  | cons t rest ih =>
      rcases List.ne_and_not_mem_of_not_mem_cons h with ⟨hfirst, hrest⟩
      cases t with
      | opening => exact absurd rfl hfirst
      | char c => exact ih hrest
      | separator => exact ih hrest
      | closing => exact ih hrest

theorem loweredSource_of_unopened (h : .opening ∉ tokens) :
    loweredSource tokens = tokens.flatMap Token.source := by
  induction tokens with
  | nil => rw [loweredSource, List.flatMap_nil]
  | cons t rest ih =>
      rcases List.ne_and_not_mem_of_not_mem_cons h with ⟨hfirst, hrest⟩
      rw [loweredSource_cons hfirst.symm, List.flatMap_cons, ih hrest]

/-- Tokens that open no invocation are read as texts that have their source. -/
theorem exists_parse_of_unopened (h : .opening ∉ tokens) :
    ∃ statements, parse registry limit tokens = .ok statements ∧
      Statement.invoked statements = [] ∧
      Statement.source statements = tokens.flatMap Token.source := by
  rcases exists_run_of_unopened h [] with ⟨after, hrun⟩
  have hparse : parse registry limit tokens = .ok after.reverse := by
    rw [parse_eq_ok, List.reverse_reverse]
    exact hrun
  refine ⟨after.reverse, hparse, ?_, ?_⟩
  · rw [invoked_of_parse hparse, invokedNames_of_unopened h]
  · rw [source_of_parse hparse, loweredSource_of_unopened h]

end Markup

open Markup (Statement Token)

theorem Expansion.expandOnto_of_uninvoked {registry : Registry}
    {evaluator : Template.Evaluator} {statements : List Statement}
    (h : Statement.invoked statements = []) (out : String) (sheet : Stylesheet) :
    expandOnto registry evaluator out sheet statements =
      (.ok (out ++ String.ofList (Statement.source statements)), sheet) := by
  induction statements generalizing out with
  | nil =>
      rw [expandOnto]
      simp
  | cons s rest ih =>
      cases s with
      | invocation name arguments =>
          rw [Statement.invoked_invocation_cons] at h
          cases h
      | text content =>
          rw [expandOnto, ih h, Statement.source_text_cons, String.ofList_append,
            String.ofList_toList, String.append_assoc]

namespace Compiler

/-!
# Compiling without components
-/

/-- A text whose tokens open no invocation, and are not too many, is compiled to itself
without styles.  Its tokens open none where every `![` in it stands behind `]`. -/
theorem compile_of_unopened (c : Compiler) (text : String) :
    (.opening ∉ Token.scan text.toList →
      (Token.scan text.toList).length ≤ c.tokenLimit → c.compile text = .ok ⟨text, ""⟩) ∧
      (.opening ∉ Token.scan text.toList ↔
        ∀ before after, text.toList = before ++ '!' :: '[' :: after →
          before.getLast? = some ']') := by
  constructor
  · intro hopening hlimit
    rcases Markup.exists_parse_of_unopened hopening with
      ⟨statements, hparse, hinvoked, hsource⟩
    have hstatements := statements_eq_ok.mpr ⟨hlimit, hparse⟩
    rw [Token.flatMap_source_scan] at hsource
    rw [compile_of_statements hstatements, documentOf, expand,
      Expansion.expandOnto_of_uninvoked hinvoked, hinvoked, hsource]
    simp
  · rw [Token.opening_mem_scan_iff]
    simp

/-- The `!` of `![hr` closes something, and outside of templates placeholders are text. -/
theorem compile_of_unopened_marks :
    .opening ∉ Token.scan "a ][ ${b} ]![hr]! ${eval:1}!".toList ∧
      Compiler.compile ⟨styledRegistry, Script.evaluator 8, 27, 0⟩
          "a ][ ${b} ]![hr]! ${eval:1}!" =
        .ok ⟨"a ][ ${b} ]![hr]! ${eval:1}!", ""⟩ := by
  have hopening : .opening ∉ Token.scan "a ][ ${b} ]![hr]! ${eval:1}!".toList := by
    decide +kernel
  constructor
  · exact hopening
  · exact (compile_of_unopened _ _).1 hopening (by decide +kernel)

end Compiler
end ComponentMarkup
