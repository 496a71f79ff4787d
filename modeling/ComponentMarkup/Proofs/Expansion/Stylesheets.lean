import ComponentMarkup.Proofs.Expansion.Steps
import ComponentMarkup.Proofs.Markup.Invocations

/-!
# Expansion and the stylesheet

An expansion notes the components that its statements invoke, in their order and up to
the place where it fails.  What it writes does not depend on the stylesheet, so many
expansions can share one.
-/

namespace ComponentMarkup

open Markup (Statement)
open Template (Evaluator)

namespace Expansion

variable {registry : Registry} {evaluator : Evaluator}

/-!
# What is noted
-/

/-- An outcome whose stylesheet has some more names noted: all of them, unless it is a
failure. -/
inductive Notes (registry : Registry) (sheet : Stylesheet) (names : List String) {α : Type} :
    Outcome α → Prop where
  | all (result : Except ExpansionError α) :
      Notes registry sheet names (result, sheet.noteAll registry names)
  | failed (cause : ExpansionError) (noted : List String) (earlier : noted <+: names) :
      Notes registry sheet names (.error cause, sheet.noteAll registry noted)

namespace Notes

variable {α β : Type} {sheet : Stylesheet} {names : List String} {outcome : Outcome α}

theorem sheet_of_ok (h : Notes registry sheet names outcome) {result : α}
    (hok : outcome.1 = .ok result) : outcome.2 = sheet.noteAll registry names := by
  cases h with
  | all => rfl
  | failed => cases hok

theorem failed_before (h : Notes registry sheet names outcome) (others : List String)
    (cause : ExpansionError) :
    Notes registry sheet (names ++ others) ((.error cause, outcome.2) : Outcome β) := by
  cases h with
  | all => exact failed cause names (List.prefix_append names others)
  | failed _ noted earlier =>
      exact failed cause noted (earlier.trans (List.prefix_append names others))

theorem behind {earlier : List String}
    (h : Notes registry (sheet.noteAll registry earlier) names outcome) :
    Notes registry sheet (earlier ++ names) outcome := by
  cases h with
  | all result =>
      rw [← Stylesheet.noteAll_append]
      exact all result
  | failed cause noted hnoted =>
      rw [← Stylesheet.noteAll_append]
      exact failed cause (earlier ++ noted) ((List.prefix_append_right_inj earlier).mpr hnoted)

theorem exists_noteAll (h : Notes registry sheet names outcome) :
    ∃ noted, outcome.2 = sheet.noteAll registry noted := by
  cases h with
  | all => exact ⟨names, rfl⟩
  | failed cause noted => exact ⟨noted, rfl⟩

end Notes

theorem notes_bindOnto {arguments : List (List Statement)}
    (harguments : ∀ argument ∈ arguments, ∀ sheet,
      Notes registry sheet (Statement.invoked argument)
        (expandOnto registry evaluator "" sheet argument))
    {parameters : List String} (hlength : arguments.length = parameters.length)
    (filled : Instance) (sheet : Stylesheet) :
    Notes registry sheet (Statement.invokedInArguments arguments)
      (bindOnto registry evaluator filled sheet parameters arguments) := by
  induction arguments generalizing parameters filled sheet with
  | nil =>
      rw [bindOnto]
      exact Notes.all (.ok filled)
  | cons argument rest ih =>
      cases parameters with
      | nil => cases hlength
      | cons parameter others =>
          have hfirst := harguments argument List.mem_cons_self sheet
          rw [bindOnto_cons, Statement.invokedInArguments_cons]
          dsimp only
          split
          · exact hfirst.failed_before _ _
          · rename_i value hvalue
            rw [hfirst.sheet_of_ok hvalue]
            apply Notes.behind
            apply ih
            · exact fun next hnext => harguments next (List.mem_cons_of_mem argument hnext)
            · exact Nat.succ.inj hlength

/-- Expanding statements notes what they invoke. -/
theorem notes_expandOnto (out : String) (sheet : Stylesheet) (statements : List Statement) :
    Notes registry sheet (Statement.invoked statements)
      (expandOnto registry evaluator out sheet statements) := by
  induction statements using Statement.listInduction generalizing out sheet with
  | nil =>
      rw [expandOnto]
      exact Notes.all (.ok out)
  | text content rest ih =>
      rw [expandOnto]
      exact ih (out ++ content) sheet
  | invocation name arguments rest harguments ih =>
      -- The name is noted first, then what the arguments and the rest invoke.
      rw [expandOnto_invocation_cons, Statement.invoked_invocation_cons, ← List.singleton_append]
      apply Notes.behind
      rw [Stylesheet.noteAll_cons, Stylesheet.noteAll_nil]
      cases hcomponent : component registry name arguments.length with
      | error cause => exact Notes.failed cause [] List.nil_prefix
      | ok c =>
          have hbind := notes_bindOnto
            (fun argument hargument => harguments argument hargument "")
            (component_eq_ok hcomponent).2 ⟨c.html, Scope.empty⟩ (sheet.note registry name)
          dsimp only
          split
          · exact hbind.failed_before _ _
          · rename_i filled hfilled
            split
            · exact hbind.failed_before _ _
            · rename_i text _
              rw [hbind.sheet_of_ok hfilled]
              apply Notes.behind
              exact ih (out ++ text) _

/-!
# What is written
-/

theorem map_append_empty (result : Except ExpansionError String) :
    result.map ("" ++ ·) = result := by
  cases result <;> simp [Except.map]

theorem bindOnto_fst {arguments : List (List Statement)}
    (harguments : ∀ argument ∈ arguments, ∀ sheet,
      (expandOnto registry evaluator "" sheet argument).1 =
        (expand registry evaluator argument Stylesheet.empty).1)
    (filled : Instance) (sheet : Stylesheet) (parameters : List String) :
    (bindOnto registry evaluator filled sheet parameters arguments).1 =
      (bindOnto registry evaluator filled Stylesheet.empty parameters arguments).1 := by
  induction arguments generalizing filled sheet parameters with
  | nil => rw [bindOnto, bindOnto]
  | cons argument rest ih =>
      cases parameters with
      | nil => rw [bindOnto, bindOnto]
      | cons parameter others =>
          have hfirst := harguments argument List.mem_cons_self
          have hrest := ih fun next hnext => harguments next (List.mem_cons_of_mem argument hnext)
          rw [bindOnto_cons, bindOnto_cons]
          dsimp only
          rw [hfirst sheet, hfirst Stylesheet.empty]
          cases (expand registry evaluator argument Stylesheet.empty).1 with
          | error cause => rfl
          | ok value => exact (hrest _ _ others).trans (hrest _ _ others).symm

/-- What some statements write does not depend on the text before them nor on the
stylesheet. -/
theorem expandOnto_fst (out : String) (sheet : Stylesheet) (statements : List Statement) :
    (expandOnto registry evaluator out sheet statements).1 =
      (expand registry evaluator statements Stylesheet.empty).1.map (out ++ ·) := by
  induction statements using Statement.listInduction generalizing out sheet with
  | nil =>
      rw [expand, expandOnto, expandOnto]
      simp [Except.map]
  | text content rest ih =>
      rw [expand, expandOnto, expandOnto, ih, ih]
      cases (expand registry evaluator rest Stylesheet.empty).1 <;>
        simp [Except.map, String.append_assoc]
  | invocation name arguments rest harguments ih =>
      have hbind := fun c : Component =>
        bindOnto_fst (fun argument hargument sheet =>
          (harguments argument hargument "" sheet).trans (map_append_empty _))
          ⟨c.html, Scope.empty⟩
      rw [expand, expandOnto_invocation_cons, expandOnto_invocation_cons]
      cases component registry name arguments.length with
      | error cause => rfl
      | ok c =>
          -- Both runs bind the same instance, so they part only in their stylesheets.
          dsimp only
          rw [hbind c (sheet.note registry name), hbind c (Stylesheet.empty.note registry name)]
          cases (bindOnto registry evaluator ⟨c.html, Scope.empty⟩ Stylesheet.empty c.parameters
            arguments).1 with
          | error cause => rfl
          | ok filled =>
              dsimp only
              cases filled.finish evaluator name with
              | error cause => rfl
              | ok text =>
                  dsimp only
                  rw [ih, ih]
                  cases (expand registry evaluator rest Stylesheet.empty).1 <;>
                    simp [Except.map, String.append_assoc]

end Expansion

/-!
# A shared stylesheet
-/

namespace Stylesheet

/-- What a stylesheet is used for: the style of one component, or an expansion. -/
inductive Use where
  | component (name : String)
  | statements (statements : List Statement)

/-- The stylesheet behind a use, which may fail. -/
def use (registry : Registry) (evaluator : Evaluator) (s : Stylesheet) : Use → Stylesheet
  | .component name => s.note registry name
  | .statements statements => (expand registry evaluator statements s).2

/-- An empty stylesheet after some uses, one behind the other. -/
def run (registry : Registry) (evaluator : Evaluator) (uses : List Use) : Stylesheet :=
  uses.foldl (use registry evaluator) empty

variable {registry : Registry} {evaluator : Evaluator}

theorem use_eq_noteAll (s : Stylesheet) (u : Use) :
    ∃ names, s.use registry evaluator u = s.noteAll registry names := by
  cases u with
  | component name => exact ⟨[name], rfl⟩
  | statements statements => exact (Expansion.notes_expandOnto "" s statements).exists_noteAll

theorem use_appends (s : Stylesheet) (u : Use) :
    ∃ names, s.use registry evaluator u =
      ⟨s.included ++ names, s.css ++ registry.styles names⟩ := by
  rcases use_eq_noteAll s u with ⟨names, hnames⟩
  exact ⟨s.newNames registry names, by rw [hnames, noteAll_eq]⟩

theorem Sound.use {s : Stylesheet} (h : s.Sound registry) (u : Use) :
    (s.use registry evaluator u).Sound registry := by
  rcases use_eq_noteAll s u with ⟨names, hnames⟩
  rw [hnames]
  exact h.noteAll names

theorem Sound.foldl_use {s : Stylesheet} (h : s.Sound registry) (uses : List Use) :
    (uses.foldl (Stylesheet.use registry evaluator) s).Sound registry := by
  induction uses generalizing s with
  | nil => exact h
  | cons u rest ih => exact ih (h.use u)

/-- Whatever a stylesheet was used for, its components are distinct and known and it has
their styles in the same order, every further use only appends to it, and an expansion
gives the same result with it as with an empty one. -/
theorem run_shared (registry : Registry) (evaluator : Evaluator) (uses : List Use) :
    (run registry evaluator uses).Sound registry ∧
      (∀ u, ∃ names, run registry evaluator (uses ++ [u]) =
        ⟨(run registry evaluator uses).included ++ names,
          (run registry evaluator uses).css ++ registry.styles names⟩) ∧
      ∀ statements, (expand registry evaluator statements (run registry evaluator uses)).1 =
        (expand registry evaluator statements empty).1 := by
  refine ⟨sound_empty.foldl_use uses, ?_, ?_⟩
  · intro u
    rw [run, List.foldl_append]
    exact use_appends (run registry evaluator uses) u
  · intro statements
    rw [expand, Expansion.expandOnto_fst]
    exact Expansion.map_append_empty _

end Stylesheet
end ComponentMarkup
