import Mathlib.Data.List.Nodup
import ComponentMarkup.Stylesheet

/-!
# Noting components

Noting a component extends a stylesheet when the component is known and new, and
else leaves it as it is.  So noting one component after another adds each of them
once, in the order in which they are met.
-/

namespace ComponentMarkup

/-- The styles of some components, one behind the other. -/
def Registry.styles (r : Registry) (names : List String) : String :=
  String.join ((names.filterMap r.lookup).map Component.style)

namespace Registry

variable (r : Registry)

@[simp] theorem styles_nil : r.styles [] = "" := rfl

theorem styles_append (names others : List String) :
    r.styles (names ++ others) = r.styles names ++ r.styles others := by
  simp [styles, String.join_append]

theorem styles_singleton {name : String} {c : Component} (h : r.lookup name = some c) :
    r.styles [name] = c.style := by
  simp [styles, h]

end Registry

namespace Stylesheet

variable {registry : Registry}

/-- The stylesheet after the use of a component.  An unknown component leaves no
trace. -/
def note (registry : Registry) (s : Stylesheet) (name : String) : Stylesheet :=
  match s.include? registry name with
  | none => s
  | some (_, after) => after

def noteAll (registry : Registry) (s : Stylesheet) (names : List String) : Stylesheet :=
  names.foldl (note registry) s

@[simp] theorem noteAll_nil (s : Stylesheet) : s.noteAll registry [] = s := rfl

@[simp] theorem noteAll_cons (s : Stylesheet) (name : String) (rest : List String) :
    s.noteAll registry (name :: rest) = (s.note registry name).noteAll registry rest := rfl

theorem noteAll_append (s : Stylesheet) (names others : List String) :
    s.noteAll registry (names ++ others) =
      (s.noteAll registry names).noteAll registry others :=
  List.foldl_append

/-!
# One component
-/

theorem note_of_mem {s : Stylesheet} {name : String} (h : name ∈ s.included) :
    s.note registry name = s := by
  have hcontains : s.included.contains name = true := List.contains_iff_mem.mpr h
  rw [note, include?, if_pos hcontains]

theorem note_of_unknown {s : Stylesheet} {name : String} (h : registry.lookup name = none) :
    s.note registry name = s := by
  unfold note include?
  rw [h]
  by_cases hcontains : s.included.contains name = true
  · rw [if_pos hcontains]
  · rw [if_neg hcontains]
    rfl

theorem note_of_new {s : Stylesheet} {name : String} {c : Component}
    (hnew : name ∉ s.included) (h : registry.lookup name = some c) :
    s.note registry name = s.append name c.style := by
  have hcontains : ¬ s.included.contains name = true := by
    rw [List.contains_iff_mem]
    exact hnew
  rw [note, include?, if_neg hcontains, h]
  rfl

/-!
# Many components
-/

/-- The known ones of some names that a stylesheet does not have yet, each once. -/
def newNames (registry : Registry) (s : Stylesheet) (names : List String) : List String :=
  ((names.filter registry.contains).removeAll s.included).eraseDups

theorem removeAll_append_singleton (names earlier : List String) (name : String) :
    names.removeAll (earlier ++ [name]) =
      (names.removeAll earlier).filter fun other => !other == name := by
  unfold List.removeAll
  rw [List.filter_filter]
  apply List.filter_congr
  intro other _
  simp only [List.elem_eq_contains, List.contains_append, List.contains_cons,
    List.contains_nil, Bool.or_false, Bool.not_or]
  exact Bool.and_comm _ _

theorem newNames_of_mem {s : Stylesheet} {name : String} (h : name ∈ s.included)
    (rest : List String) : s.newNames registry (name :: rest) = s.newNames registry rest := by
  have hcontains : s.included.contains name = true := List.contains_iff_mem.mpr h
  unfold newNames
  rw [List.filter_cons]
  split
  · rw [List.cons_removeAll, if_neg (by simp [h])]
  · rfl

theorem newNames_of_unknown {s : Stylesheet} {name : String} (h : registry.lookup name = none)
    (rest : List String) : s.newNames registry (name :: rest) = s.newNames registry rest := by
  have hunknown : registry.contains name = false := by
    rw [Registry.contains, h]
    rfl
  rw [newNames, List.filter_cons_of_neg (by simp [hunknown]), newNames]

theorem newNames_of_new {s : Stylesheet} {name : String} {c : Component}
    (hnew : name ∉ s.included) (h : registry.lookup name = some c) (rest : List String) :
    s.newNames registry (name :: rest) =
      name :: (s.append name c.style).newNames registry rest := by
  have hknown : registry.contains name = true := by
    rw [Registry.contains, h]
    rfl
  have hcontains : s.included.contains name = false := by
    rw [Bool.eq_false_iff, ne_eq, List.contains_iff_mem]
    exact hnew
  rw [newNames, List.filter_cons_of_pos hknown, List.cons_removeAll, if_pos hcontains,
    List.eraseDups_cons, newNames, append, removeAll_append_singleton]

/-- Noting components adds the new ones and their styles. -/
theorem noteAll_eq (s : Stylesheet) (names : List String) :
    s.noteAll registry names =
      ⟨s.included ++ s.newNames registry names,
        s.css ++ registry.styles (s.newNames registry names)⟩ := by
  induction names generalizing s with
  | nil => simp [newNames]
  | cons name rest ih =>
      rw [noteAll_cons, ih]
      by_cases hmem : name ∈ s.included
      · rw [note_of_mem hmem, newNames_of_mem hmem]
      · cases hlookup : registry.lookup name with
        | none => rw [note_of_unknown hlookup, newNames_of_unknown hlookup]
        | some c =>
            rw [note_of_new hmem hlookup, newNames_of_new hmem hlookup]
            have hstyles := registry.styles_append [name]
              ((s.append name c.style).newNames registry rest)
            rw [List.singleton_append, registry.styles_singleton hlookup] at hstyles
            rw [hstyles, append, List.append_assoc, String.append_assoc, List.singleton_append]

theorem newNames_empty {names : List String}
    (h : ∀ name ∈ names, registry.contains name = true) :
    empty.newNames registry names = names.eraseDups := by
  rw [newNames, List.filter_eq_self.mpr h, empty, List.removeAll_nil]

/-!
# What holds of every stylesheet
-/

/-- The components of a stylesheet are distinct and known, and it has their styles in
their order. -/
structure Sound (registry : Registry) (s : Stylesheet) : Prop where
  distinct : s.included.Nodup
  known : ∀ name ∈ s.included, registry.contains name = true
  css : s.css = registry.styles s.included

theorem sound_empty : empty.Sound registry where
  distinct := List.nodup_nil
  known := by
    intro name hname
    cases hname
  css := rfl

theorem Sound.note {s : Stylesheet} (h : s.Sound registry) (name : String) :
    (s.note registry name).Sound registry := by
  by_cases hmem : name ∈ s.included
  · rw [note_of_mem hmem]
    exact h
  · cases hlookup : registry.lookup name with
    | none =>
        rw [note_of_unknown hlookup]
        exact h
    | some c =>
        rw [note_of_new hmem hlookup]
        constructor
        · rw [append, List.nodup_append]
          refine ⟨h.distinct, List.nodup_singleton name, ?_⟩
          intro other hother new hnew heq
          rw [List.mem_singleton.mp hnew] at heq
          exact hmem (heq ▸ hother)
        · intro other hother
          rcases List.mem_append.mp hother with hearlier | hnew
          · exact h.known other hearlier
          · rw [List.mem_singleton.mp hnew, Registry.contains, hlookup]
            rfl
        · rw [append, h.css, registry.styles_append, registry.styles_singleton hlookup]

theorem Sound.noteAll {s : Stylesheet} (h : s.Sound registry) (names : List String) :
    (s.noteAll registry names).Sound registry := by
  induction names generalizing s with
  | nil => exact h
  | cons name rest ih => exact ih (h.note name)

theorem nodup_of_known {names : List String}
    (h : ∀ name ∈ names, registry.contains name = true) : names.eraseDups.Nodup := by
  have hsound : (empty.noteAll registry names).Sound registry := sound_empty.noteAll names
  have hdistinct := hsound.distinct
  rw [noteAll_eq, newNames_empty h] at hdistinct
  exact hdistinct

end Stylesheet
end ComponentMarkup
