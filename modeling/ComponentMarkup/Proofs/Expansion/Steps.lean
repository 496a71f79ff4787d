import ComponentMarkup.Expansion
import ComponentMarkup.Proofs.Stylesheet.Noting

/-!
# Steps of an expansion

An invocation is noted, its component is found, its arguments are put into the template
and the result is written.  Each step is an equation, in which the stylesheet is handed
on whether or not the step succeeds.
-/

namespace ComponentMarkup
namespace Expansion

open Markup (Statement)
open Template (Evaluator)

variable {registry : Registry} {evaluator : Evaluator}

/-!
# Outcomes and stylesheets apart
-/

/-- The component of an invocation, if its arguments are as many as the parameters. -/
def component (registry : Registry) (name : String) (found : Nat) :
    Except ExpansionError Component :=
  match registry.lookup name with
  | none => .error (.unknownComponent name)
  | some c =>
      if found = c.arity then .ok c
      else .error (.wrongArity name c.arity found c.usage)

theorem component_eq_ok {name : String} {found : Nat} {c : Component}
    (h : component registry name found = .ok c) :
    registry.lookup name = some c ∧ found = c.arity := by
  unfold component at h
  split at h
  · cases h
  · rename_i hlookup
    split at h
    · rename_i harity
      cases h
      exact ⟨hlookup, harity⟩
    · cases h

/-- An invocation is noted whether or not it has a component. -/
theorem enter_eq (name : String) (found : Nat) (sheet : Stylesheet) :
    enter registry name found sheet =
      (component registry name found, sheet.note registry name) := by
  unfold enter component Stylesheet.note
  cases hlookup : registry.lookup name with
  | none => cases sheet.include? registry name <;> rfl
  | some c =>
      cases hinclude : sheet.include? registry name with
      | none =>
          unfold Stylesheet.include? at hinclude
          split at hinclude
          · cases hinclude
          · rw [hlookup] at hinclude
            cases hinclude
      | some entry =>
          dsimp only
          split <;> rfl

theorem expandOnto_invocation_cons (out : String) (sheet : Stylesheet) (name : String)
    (arguments : List (List Statement)) (rest : List Statement) :
    expandOnto registry evaluator out sheet (.invocation name arguments :: rest) =
      match component registry name arguments.length with
      | .error cause => (.error cause, sheet.note registry name)
      | .ok c =>
          let bound := bindOnto registry evaluator ⟨c.html, Scope.empty⟩
            (sheet.note registry name) c.parameters arguments
          match bound.1 with
          | .error cause => (.error cause, bound.2)
          | .ok filled =>
              match filled.finish evaluator name with
              | .error cause => (.error cause, bound.2)
              | .ok text => expandOnto registry evaluator (out ++ text) bound.2 rest := by
  rw [expandOnto, enter_eq]
  cases component registry name arguments.length with
  | error cause => rfl
  | ok c =>
      dsimp only
      rcases bindOnto registry evaluator ⟨c.html, Scope.empty⟩ (sheet.note registry name)
        c.parameters arguments with ⟨cause | filled, bound⟩
      · rfl
      · cases hfinish : filled.finish evaluator name <;> simp only [hfinish]

theorem bindOnto_cons (filled : Instance) (sheet : Stylesheet) (parameter : String)
    (others : List String) (argument : List Statement) (rest : List (List Statement)) :
    bindOnto registry evaluator filled sheet (parameter :: others) (argument :: rest) =
      let expanded := expandOnto registry evaluator "" sheet argument
      match expanded.1 with
      | .error cause => (.error cause, expanded.2)
      | .ok value =>
          bindOnto registry evaluator (filled.bind parameter value) expanded.2 others rest := by
  rw [bindOnto]
  rcases expandOnto registry evaluator "" sheet argument with ⟨cause | value, expanded⟩ <;> rfl

theorem Instance.finish_eq_mapError (i : Instance) (evaluator : Evaluator) (name : String) :
    i.finish evaluator name =
      (Template.fill evaluator i.scope i.html).mapError (.evaluation name) := by
  rw [finish]
  cases Template.fill evaluator i.scope i.html <;> rfl

/-!
# Expansions that succeed
-/

theorem enter_eq_ok {name : String} {found : Nat} {sheet after : Stylesheet} {c : Component}
    (h : enter registry name found sheet = (.ok c, after)) :
    registry.lookup name = some c ∧ found = c.arity := by
  rw [enter_eq] at h
  exact component_eq_ok (Prod.mk.inj h).1

theorem expandOnto_invocation_eq_ok {out name value : String} {sheet after : Stylesheet}
    {arguments : List (List Statement)} {rest : List Statement}
    (h : expandOnto registry evaluator out sheet (.invocation name arguments :: rest) =
      (.ok value, after)) :
    ∃ c entered filled bound text,
      enter registry name arguments.length sheet = (.ok c, entered) ∧
        bindOnto registry evaluator ⟨c.html, Scope.empty⟩ entered c.parameters arguments =
          (.ok filled, bound) ∧
        filled.finish evaluator name = .ok text ∧
        expandOnto registry evaluator (out ++ text) bound rest = (.ok value, after) := by
  rw [expandOnto] at h
  split at h
  · cases h
  · rename_i c entered henter
    split at h
    · cases h
    · rename_i filled bound hbind
      split at h
      · cases h
      · rename_i text hfinish
        exact ⟨c, entered, filled, bound, text, henter, hbind, hfinish, h⟩

theorem bindOnto_cons_eq_ok {filled result : Instance} {sheet after : Stylesheet}
    {parameter : String} {others : List String} {argument : List Statement}
    {rest : List (List Statement)}
    (h : bindOnto registry evaluator filled sheet (parameter :: others) (argument :: rest) =
      (.ok result, after)) :
    ∃ value expanded,
      expandOnto registry evaluator "" sheet argument = (.ok value, expanded) ∧
        bindOnto registry evaluator (filled.bind parameter value) expanded others rest =
          (.ok result, after) := by
  rw [bindOnto] at h
  split at h
  · cases h
  · rename_i value expanded hexpand
    exact ⟨value, expanded, hexpand, h⟩

/-!
# Two evaluators
-/

section Congruence

variable {other : Evaluator} {arguments : List (List Statement)}

theorem bindOnto_congr
    (hsame : ∀ argument ∈ arguments, ∀ sheet,
      expandOnto registry evaluator "" sheet argument =
        expandOnto registry other "" sheet argument)
    (filled : Instance) (sheet : Stylesheet) (parameters : List String) :
    bindOnto registry evaluator filled sheet parameters arguments =
      bindOnto registry other filled sheet parameters arguments := by
  induction arguments generalizing parameters filled sheet with
  | nil => rw [bindOnto, bindOnto]
  | cons argument rest ih =>
      cases parameters with
      | nil => rw [bindOnto, bindOnto]
      | cons parameter others =>
          rw [bindOnto, bindOnto, ← hsame argument List.mem_cons_self]
          rcases expandOnto registry evaluator "" sheet argument with ⟨_ | value, expanded⟩
          · rfl
          · exact ih (fun next hnext => hsame next (List.mem_cons_of_mem argument hnext)) _ _ _

/-- Evaluators that do the same to the arguments, to the filled template and to what comes
behind an invocation do the same to it all. -/
theorem expandOnto_invocation_congr {name : String} {rest : List Statement}
    (harguments : ∀ argument ∈ arguments, ∀ sheet,
      expandOnto registry evaluator "" sheet argument =
        expandOnto registry other "" sheet argument)
    (hfinish : ∀ c entered filled bound, registry.lookup name = some c →
      arguments.length = c.arity →
      bindOnto registry evaluator ⟨c.html, Scope.empty⟩ entered c.parameters arguments =
        (.ok filled, bound) →
      filled.finish evaluator name = filled.finish other name)
    (hrest : ∀ out sheet, expandOnto registry evaluator out sheet rest =
      expandOnto registry other out sheet rest) (out : String) (sheet : Stylesheet) :
    expandOnto registry evaluator out sheet (.invocation name arguments :: rest) =
      expandOnto registry other out sheet (.invocation name arguments :: rest) := by
  rw [expandOnto, expandOnto]
  rcases henter : enter registry name arguments.length sheet with ⟨_ | c, entered⟩
  · rfl
  · dsimp only
    rw [← bindOnto_congr harguments]
    rcases hbind : bindOnto registry evaluator ⟨c.html, Scope.empty⟩ entered c.parameters
      arguments with ⟨_ | filled, bound⟩
    · rfl
    · obtain ⟨hlookup, harity⟩ := enter_eq_ok henter
      dsimp only
      rw [← hfinish c entered filled bound hlookup harity hbind]
      cases filled.finish evaluator name with
      | error cause => rfl
      | ok text => exact hrest (out ++ text) bound

end Congruence

end Expansion
end ComponentMarkup
