import ComponentMarkup.Proofs.Expansion.Stylesheets

/-!
# Invocations that are visited

An expansion visits the invocations of its statements in the order in which they begin.
Unless a code fails, it ends at the first invocation that does not fit its component, and
the stylesheet then has what was visited so far.
-/

namespace ComponentMarkup

open Markup (Statement)
open Template (Evaluator)

/-!
# Evaluators that never fail
-/

namespace Template

def NeverFails (evaluator : Evaluator) : Prop :=
  ∀ code scope, ∃ value, evaluator code scope = .ok value

variable {evaluator : Evaluator}

theorem exists_fillOnto (h : NeverFails evaluator) (scope : Scope) (out : String)
    (pieces : List Piece) : ∃ text, fillOnto evaluator scope out pieces = .ok text := by
  induction pieces generalizing out with
  | nil => exact ⟨out, rfl⟩
  | cons piece rest ih =>
      cases piece with
      | literal text => exact ih (out ++ text)
      | code code =>
          rcases h code scope with ⟨value, hvalue⟩
          rw [fillOnto, hvalue]
          exact ih (out ++ value)

theorem exists_fill (h : NeverFails evaluator) (scope : Scope) (html : String) :
    ∃ text, fill evaluator scope html = .ok text := by
  unfold fill
  split
  · exact exists_fillOnto h scope "" (pieces html)
  · exact ⟨html, rfl⟩

end Template

namespace Expansion

variable {registry : Registry} {evaluator : Evaluator}

theorem exists_finish (h : Template.NeverFails evaluator) (i : Instance) (name : String) :
    ∃ text, i.finish evaluator name = .ok text := by
  rcases Template.exists_fill h i.scope i.html with ⟨text, htext⟩
  rw [Instance.finish_eq_mapError, htext]
  exact ⟨text, rfl⟩

/-!
# Invocations that do not fit
-/

/-- Whether a statement is an invocation without a component of its name that has as many
parameters as there are arguments. -/
def Misfits (registry : Registry) : Statement → Prop
  | .text _ => False
  | .invocation name arguments =>
      ∀ c, registry.lookup name = some c → arguments.length ≠ c.arity

instance (registry : Registry) : DecidablePred (Misfits registry)
  | .text _ => inferInstanceAs (Decidable False)
  | .invocation name arguments =>
      inferInstanceAs (Decidable (∀ c ∈ registry.lookup name, arguments.length ≠ c.arity))

/-- What is reported of an invocation that does not fit. -/
def misfitError (registry : Registry) (name : String) (found : Nat) : ExpansionError :=
  match registry.lookup name with
  | none => .unknownComponent name
  | some c => .wrongArity name c.arity found c.usage

theorem component_of_misfits {name : String} {arguments : List (List Statement)}
    (h : Misfits registry (.invocation name arguments)) :
    component registry name arguments.length =
      .error (misfitError registry name arguments.length) := by
  unfold component misfitError
  cases hlookup : registry.lookup name with
  | none => rfl
  | some c => exact if_neg (h c hlookup)

theorem exists_component {name : String} {arguments : List (List Statement)}
    (h : ¬ Misfits registry (.invocation name arguments)) :
    ∃ c, component registry name arguments.length = .ok c := by
  simp only [Misfits, not_forall, Decidable.not_not] at h
  rcases h with ⟨c, hlookup, harity⟩
  refine ⟨c, ?_⟩
  rw [component, hlookup]
  exact if_pos harity

/-!
# Visits
-/

/-- Visit statements one after another.  Every invocation is noted, and the first one that
does not fit ends the visit. -/
def visit (registry : Registry) (sheet : Stylesheet) : List Statement → Outcome Unit
  | [] => (.ok (), sheet)
  | .text _ :: rest => visit registry sheet rest
  | .invocation name arguments :: rest =>
      match component registry name arguments.length with
      | .error cause => (.error cause, sheet.note registry name)
      | .ok _ => visit registry (sheet.note registry name) rest

theorem visit_append (sheet : Stylesheet) (statements others : List Statement) :
    visit registry sheet (statements ++ others) =
      match (visit registry sheet statements).1 with
      | .error cause => (.error cause, (visit registry sheet statements).2)
      | .ok _ => visit registry (visit registry sheet statements).2 others := by
  induction statements generalizing sheet with
  | nil => rfl
  | cons s rest ih =>
      cases s with
      | text content => exact ih sheet
      | invocation name arguments =>
          rw [List.cons_append, visit, visit]
          cases component registry name arguments.length with
          | error cause => rfl
          | ok c => exact ih (sheet.note registry name)

theorem visit_of_fitting {statements : List Statement}
    (h : ∀ s ∈ statements, ¬ Misfits registry s) (sheet : Stylesheet) :
    visit registry sheet statements =
      (.ok (), sheet.noteAll registry (statements.filterMap Statement.name?)) := by
  induction statements generalizing sheet with
  | nil => rfl
  | cons s rest ih =>
      rcases List.forall_mem_cons.mp h with ⟨hs, hrest⟩
      cases s with
      | text content => exact ih hrest sheet
      | invocation name arguments =>
          rcases exists_component hs with ⟨c, hcomponent⟩
          rw [visit, hcomponent]
          exact ih hrest (sheet.note registry name)

/-- A visit ends at the first invocation that does not fit. -/
theorem visit_of_first {before after : List Statement} {name : String}
    {arguments : List (List Statement)} (hbefore : ∀ s ∈ before, ¬ Misfits registry s)
    (h : Misfits registry (.invocation name arguments)) (sheet : Stylesheet) :
    visit registry sheet (before ++ .invocation name arguments :: after) =
      (.error (misfitError registry name arguments.length),
        sheet.noteAll registry (before.filterMap Statement.name? ++ [name])) := by
  rw [visit_append, visit_of_fitting hbefore]
  dsimp only
  rw [visit, component_of_misfits h, Stylesheet.noteAll_append]
  rfl

/-!
# Expansions as visits
-/

/-- An outcome without what is written. -/
def silent {α : Type} (outcome : Outcome α) : Outcome Unit :=
  (outcome.1.map fun _ => (), outcome.2)

theorem silent_eq_error {α : Type} {outcome : Outcome α} {cause : ExpansionError}
    {sheet : Stylesheet} :
    silent outcome = (.error cause, sheet) ↔ outcome = (.error cause, sheet) := by
  rcases outcome with ⟨found | value, after⟩ <;> simp [silent, Except.map]

theorem silent_bindOnto {arguments : List (List Statement)}
    (harguments : ∀ argument ∈ arguments, ∀ sheet,
      silent (expandOnto registry evaluator "" sheet argument) =
        visit registry sheet (Statement.withinAll argument))
    {parameters : List String} (hlength : arguments.length = parameters.length)
    (filled : Instance) (sheet : Stylesheet) :
    silent (bindOnto registry evaluator filled sheet parameters arguments) =
      visit registry sheet (Statement.withinArguments arguments) := by
  induction arguments generalizing parameters filled sheet with
  | nil =>
      rw [bindOnto]
      rfl
  | cons argument rest ih =>
      cases parameters with
      | nil => cases hlength
      | cons parameter others =>
          have hfirst := harguments argument List.mem_cons_self sheet
          have hrest := ih (fun next hnext => harguments next (List.mem_cons_of_mem argument hnext))
            (Nat.succ.inj hlength)
          rw [bindOnto_cons, Statement.withinArguments, visit_append, ← hfirst]
          rcases expandOnto registry evaluator "" sheet argument with ⟨cause | value, expanded⟩
          · rfl
          · exact hrest (filled.bind parameter value) expanded

/-- Apart from what it writes, an expansion visits its statements in the order in which they
begin. -/
theorem silent_expandOnto (h : Template.NeverFails evaluator) (out : String)
    (sheet : Stylesheet) (statements : List Statement) :
    silent (expandOnto registry evaluator out sheet statements) =
      visit registry sheet (Statement.withinAll statements) := by
  induction statements using Statement.listInduction generalizing out sheet with
  | nil =>
      rw [expandOnto]
      rfl
  | text content rest ih =>
      rw [expandOnto]
      exact ih (out ++ content) sheet
  | invocation name arguments rest harguments ih =>
      have hwithin : Statement.withinAll (.invocation name arguments :: rest) =
          .invocation name arguments ::
            (Statement.withinArguments arguments ++ Statement.withinAll rest) := by
        simp [Statement.withinAll, Statement.within]
      rw [expandOnto_invocation_cons, hwithin, visit]
      cases hcomponent : component registry name arguments.length with
      | error cause => rfl
      | ok c =>
          have hbind := silent_bindOnto
            (fun argument hargument => harguments argument hargument "")
            (component_eq_ok hcomponent).2 ⟨c.html, Scope.empty⟩ (sheet.note registry name)
          dsimp only
          rw [visit_append, ← hbind]
          rcases bindOnto registry evaluator ⟨c.html, Scope.empty⟩ (sheet.note registry name)
            c.parameters arguments with ⟨cause | filled, bound⟩
          · rfl
          · rcases exists_finish h filled name with ⟨text, htext⟩
            dsimp only
            rw [htext]
            exact ih (out ++ text) bound

theorem exists_first_misfit {statements : List Statement}
    (h : ∃ s ∈ statements, Misfits registry s) :
    ∃ before name arguments after, statements = before ++ .invocation name arguments :: after ∧
      (∀ s ∈ before, ¬ Misfits registry s) ∧ Misfits registry (.invocation name arguments) := by
  rcases h with ⟨s, hs, hmisfits⟩
  cases hfind : statements.find? fun s => decide (Misfits registry s) with
  | none =>
      have hnone := List.find?_eq_none.mp hfind s hs
      exact absurd (decide_eq_true hmisfits) hnone
  | some first =>
      rcases List.find?_eq_some_iff_append.mp hfind with ⟨hfirst, before, after, hsplit, hbefore⟩
      cases first with
      | text content => cases (of_decide_eq_true hfirst : Misfits registry (.text content))
      | invocation name arguments =>
          refine ⟨before, name, arguments, after, hsplit, ?_, of_decide_eq_true hfirst⟩
          intro other hother
          simpa using hbefore other hother

/-- Unless a code fails, an expansion fails exactly where an invocation at any depth does not
fit its component.  It reports the first one, where an invocation comes before those in its
arguments, and has added the names up to there to the stylesheet: those that are known and
new, each once. -/
theorem expand_first_misfit (registry : Registry) {evaluator : Evaluator}
    (h : Template.NeverFails evaluator) (statements : List Statement) (sheet : Stylesheet) :
    ((∃ cause, (expand registry evaluator statements sheet).1 = .error cause) ↔
      ∃ s ∈ Statement.withinAll statements, Misfits registry s) ∧
    ∀ before name arguments after,
      Statement.withinAll statements = before ++ .invocation name arguments :: after →
      (∀ s ∈ before, ¬ Misfits registry s) → Misfits registry (.invocation name arguments) →
      (expand registry evaluator statements sheet).1 =
          .error (misfitError registry name arguments.length) ∧
        (expand registry evaluator statements sheet).2.included = sheet.included ++
          sheet.newNames registry (before.filterMap Statement.name? ++ [name]) := by
  have hvisit : silent (expand registry evaluator statements sheet) =
      visit registry sheet (Statement.withinAll statements) :=
    silent_expandOnto h "" sheet statements
  have hfirst : ∀ before name arguments after,
      Statement.withinAll statements = before ++ .invocation name arguments :: after →
      (∀ s ∈ before, ¬ Misfits registry s) → Misfits registry (.invocation name arguments) →
      expand registry evaluator statements sheet =
        (.error (misfitError registry name arguments.length),
          sheet.noteAll registry (before.filterMap Statement.name? ++ [name])) := by
    intro before name arguments after hsplit hbefore hmisfits
    rw [hsplit, visit_of_first hbefore hmisfits] at hvisit
    exact silent_eq_error.mp hvisit
  constructor
  · constructor
    · rintro ⟨cause, hcause⟩
      by_contra hnone
      have hfitting : ∀ s ∈ Statement.withinAll statements, ¬ Misfits registry s :=
        fun s hs hmisfits => hnone ⟨s, hs, hmisfits⟩
      rw [visit_of_fitting hfitting, silent, hcause] at hvisit
      cases hvisit
    · intro hsome
      rcases exists_first_misfit hsome with
        ⟨before, name, arguments, after, hsplit, hbefore, hmisfits⟩
      exact ⟨_, congrArg Prod.fst (hfirst before name arguments after hsplit hbefore hmisfits)⟩
  · intro before name arguments after hsplit hbefore hmisfits
    rw [hfirst before name arguments after hsplit hbefore hmisfits, Stylesheet.noteAll_eq]
    exact ⟨rfl, rfl⟩

/-- Gives every code itself. -/
def echoEvaluator : Evaluator :=
  fun code _ => .ok code

/-- Two invocations that do not fit, the first of them in an argument. -/
def misfitStatements : List Statement :=
  [.invocation "hr" [],
    .invocation "shout" [[.invocation "pair" [[.invocation "greet" []]]]],
    .invocation "unknown" []]

theorem expand_first_misfit_inner :
    Template.NeverFails echoEvaluator ∧
      (expand Markup.sampleRegistry echoEvaluator misfitStatements ⟨["greet"], "b\x7b\x7d"⟩).1 =
        .error (.wrongArity "pair" 2 1 "") ∧
      (expand Markup.sampleRegistry echoEvaluator misfitStatements
        ⟨["greet"], "b\x7b\x7d"⟩).2.included = ["greet", "hr", "shout", "pair"] := by
  have hnever : Template.NeverFails echoEvaluator := fun code _ => ⟨code, rfl⟩
  have hsplit : Statement.withinAll misfitStatements =
      [.invocation "hr" [],
        .invocation "shout" [[.invocation "pair" [[.invocation "greet" []]]]]] ++
        .invocation "pair" [[.invocation "greet" []]] ::
          [.invocation "greet" [], .invocation "unknown" []] := rfl
  exact ⟨hnever, (expand_first_misfit Markup.sampleRegistry hnever misfitStatements _).2 _ _ _ _
    hsplit (by decide +kernel) (by decide +kernel)⟩

end Expansion
end ComponentMarkup
