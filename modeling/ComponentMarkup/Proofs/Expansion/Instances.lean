import Mathlib.Data.List.Forall2
import ComponentMarkup.Proofs.Expansion.Stylesheets
import ComponentMarkup.Proofs.Template.Segments

/-!
# Invocations with resolved arguments

An invocation whose arguments are resolved becomes the template of its component with the
values in place and its codes filled in.  The values are put in one after another.  Where
neither they nor the literal parts have a `$`, the outcome is the same as if every segment
of the template were replaced once.
-/

namespace ComponentMarkup

open Markup (Statement)
open Template (Evaluator Segment IsParameterName)

namespace Template

/-! ## Segments with values -/

namespace Segment

/-- Put several arguments in, one after another. -/
def bindAll (bindings : List (String × String)) (s : Segment) : Segment :=
  bindings.foldl (fun s binding => s.bind binding.1 binding.2) s

/-- What a segment stands for in view of a scope: a literal for itself, the placeholder of
a bound name for its value and any other placeholder for itself, and a code for what the
evaluator makes of it. -/
def instantiate (evaluator : Evaluator) (scope : Scope) :
    Segment → Except Script.EvalError String
  | .literal text => .ok text
  | .argument name =>
      .ok ((scope.bindings.lookup name).getD (String.ofList (placeholder name)))
  | .code text => evaluator text scope

theorem bindAll_cons (binding : String × String) (rest : List (String × String)) (s : Segment) :
    s.bindAll (binding :: rest) = (s.bind binding.1 binding.2).bindAll rest :=
  rfl

theorem bindAll_literal (bindings : List (String × String)) (text : String) :
    (literal text).bindAll bindings = .literal text := by
  induction bindings with
  | nil => rfl
  | cons binding rest ih => exact ih

theorem bindAll_code (bindings : List (String × String)) (text : String) :
    (code text).bindAll bindings = .code text := by
  induction bindings with
  | nil => rfl
  | cons binding rest ih => exact ih

theorem bindAll_argument (bindings : List (String × String)) (name : String) :
    (argument name).bindAll bindings =
      match bindings.lookup name with
      | some value => .literal value
      | none => .argument name := by
  induction bindings with
  | nil => rfl
  | cons binding rest ih =>
      rw [bindAll_cons, bind, Dictionary.lookup_cons_eq_if]
      by_cases hname : name = binding.1
      · rw [if_pos hname, if_pos hname, bindAll_literal]
      · rw [if_neg hname, if_neg hname, ih]

theorem value_bindAll (evaluator : Evaluator) (scope : Scope) (s : Segment) :
    (s.bindAll scope.bindings).value evaluator scope = s.instantiate evaluator scope := by
  cases s with
  | literal text => rw [bindAll_literal, value, instantiate]
  | argument name =>
      rw [bindAll_argument, instantiate]
      cases scope.bindings.lookup name <;> rfl
  | code text => rw [bindAll_code, value, instantiate]

end Segment

section Render

variable {evaluator : Evaluator} {scope : Scope}

theorem render_of_values {segments : List Segment} {texts : List String}
    (h : List.Forall₂ (fun s text => s.value evaluator scope = .ok text) segments texts) :
    render evaluator scope segments = .ok (String.join texts) := by
  induction h with
  | nil => rfl
  | cons hfirst _ ih =>
      rw [render, hfirst, ih, String.join_cons]
      rfl

/-- The first segment that fails makes the whole fail. -/
theorem render_of_error {before after : List Segment} {s : Segment} {cause : Script.EvalError}
    (hbefore : ∀ other ∈ before, ∃ text, other.value evaluator scope = .ok text)
    (hs : s.value evaluator scope = .error cause) :
    render evaluator scope (before ++ s :: after) = .error cause := by
  induction before with
  | nil =>
      rw [List.nil_append, render, hs]
      rfl
  | cons other rest ih =>
      obtain ⟨⟨text, htext⟩, hrest⟩ := List.forall_mem_cons.mp hbefore
      rw [List.cons_append, render, htext, ih hrest]
      rfl

end Render

end Template

namespace Expansion

variable {registry : Registry} {evaluator : Evaluator}

/-! ## Templates with values -/

/-- Put several arguments in, one after another. -/
def Instance.bindAll (i : Instance) (bindings : List (String × String)) : Instance :=
  bindings.foldl (fun i binding => i.bind binding.1 binding.2) i

theorem Instance.bindAll_cons (i : Instance) (binding : String × String)
    (rest : List (String × String)) :
    i.bindAll (binding :: rest) = (i.bind binding.1 binding.2).bindAll rest :=
  rfl

theorem Instance.scope_bindAll (i : Instance) (bindings : List (String × String)) :
    (i.bindAll bindings).scope = ⟨i.scope.bindings ++ bindings⟩ := by
  induction bindings generalizing i with
  | nil =>
      rw [List.append_nil]
      rfl
  | cons binding rest ih =>
      rw [bindAll_cons, ih, bind, Scope.bind, List.append_assoc]
      rfl

/-- Values without `$` are put into every segment by itself. -/
theorem Instance.html_bindAll {i : Instance} {segments : List Segment}
    {bindings : List (String × String)}
    (hnames : ∀ binding ∈ bindings, IsParameterName binding.1)
    (hvalues : ∀ binding ∈ bindings, '$' ∉ binding.2.toList)
    (hsegments : ∀ s ∈ segments, s.IsClear)
    (hhtml : i.html = String.ofList (Template.source segments)) :
    (i.bindAll bindings).html =
        String.ofList (Template.source (segments.map (Segment.bindAll bindings))) ∧
      ∀ s ∈ segments.map (Segment.bindAll bindings), s.IsClear := by
  induction bindings generalizing i segments with
  | nil =>
      have hnone : segments.map (Segment.bindAll []) = segments := List.map_id segments
      rw [hnone]
      exact ⟨hhtml, hsegments⟩
  | cons binding rest ih =>
      obtain ⟨hname, hnames⟩ := List.forall_mem_cons.mp hnames
      obtain ⟨hvalue, hvalues⟩ := List.forall_mem_cons.mp hvalues
      have hbind : (i.bind binding.1 binding.2).html = String.ofList
          (Template.source (segments.map (Segment.bind binding.1 binding.2))) := by
        rw [bind, hhtml]
        exact Template.substitute_source hname hsegments binding.2
      have hclear : ∀ s ∈ segments.map (Segment.bind binding.1 binding.2), s.IsClear := by
        intro s hs
        obtain ⟨before, hbefore, rfl⟩ := List.mem_map.mp hs
        exact Segment.isClear_bind hvalue (hsegments before hbefore)
      have hrest := ih hnames hvalues hclear hbind
      rw [List.map_map] at hrest
      exact hrest

/-- The template of a component with values for its parameters. -/
def filled (c : Component) (values : List String) : Instance :=
  Instance.bindAll ⟨c.html, Scope.empty⟩ (c.parameters.zip values)

theorem scope_filled (c : Component) (values : List String) :
    (filled c values).scope = ⟨c.parameters.zip values⟩ := by
  rw [filled, Instance.scope_bindAll]
  rfl

/-! ## Invocations -/

/-- Whether some statements are resolved to a text.  The stylesheet has no part in it. -/
def Resolves (registry : Registry) (evaluator : Evaluator) (statements : List Statement)
    (value : String) : Prop :=
  (expand registry evaluator statements Stylesheet.empty).1 = .ok value

theorem Resolves.expandOnto {statements : List Statement} {value : String}
    (h : Resolves registry evaluator statements value) (sheet : Stylesheet) :
    (expandOnto registry evaluator "" sheet statements).1 = .ok value := by
  rw [expandOnto_fst, map_append_empty]
  exact h

theorem resolves_text (text : String) : Resolves registry evaluator [.text text] text := by
  rw [Resolves, expand, Expansion.expandOnto, Expansion.expandOnto, String.empty_append]

theorem bindOnto_of_resolves {arguments : List (List Statement)} {values : List String}
    (h : List.Forall₂ (Resolves registry evaluator) arguments values) (i : Instance)
    (sheet : Stylesheet) (parameters : List String) :
    (bindOnto registry evaluator i sheet parameters arguments).1 =
      .ok (i.bindAll (parameters.zip values)) := by
  induction h generalizing i sheet parameters with
  | nil =>
      rw [bindOnto, List.zip_nil_right]
      rfl
  | cons hfirst _ ih =>
      cases parameters with
      | nil =>
          rw [bindOnto]
          rfl
      | cons parameter others =>
          rw [bindOnto_cons, List.zip_cons_cons, Instance.bindAll_cons]
          dsimp only
          rw [hfirst.expandOnto]
          exact ih _ _ others

/-- An invocation becomes its template with the values of its arguments. -/
theorem expand_invocation {name : String} {c : Component} {arguments : List (List Statement)}
    {values : List String} (hlookup : registry.lookup name = some c)
    (harity : values.length = c.arity)
    (hvalues : List.Forall₂ (Resolves registry evaluator) arguments values)
    (sheet : Stylesheet) :
    (expand registry evaluator [.invocation name arguments] sheet).1 =
      (filled c values).finish evaluator name := by
  have hcomponent : component registry name arguments.length = .ok c := by
    rw [component, hlookup, hvalues.length_eq, harity]
    exact if_pos rfl
  rw [expand, expandOnto_invocation_cons, hcomponent]
  dsimp only
  rw [bindOnto_of_resolves hvalues]
  dsimp only [filled]
  cases Instance.finish _ evaluator name with
  | error cause => rfl
  | ok text =>
      dsimp only
      rw [expandOnto, String.empty_append]

/-! ## One pass over the segments -/

/-- Putting the values in one after another and filling in the codes then replaces every
segment once. -/
theorem finish_filled {c : Component} {values : List String} {segments : List Segment}
    (hnames : ∀ parameter ∈ c.parameters, IsParameterName parameter)
    (hhtml : c.html = String.ofList (Template.source segments))
    (hsegments : ∀ s ∈ segments, s.IsClear) (hvalues : ∀ value ∈ values, '$' ∉ value.toList)
    (name : String) :
    (filled c values).finish evaluator name =
      (Template.render evaluator ⟨c.parameters.zip values⟩
        (segments.map (Segment.bindAll (c.parameters.zip values)))).mapError
          (.evaluation name) := by
  have hpairs : ∀ binding ∈ c.parameters.zip values,
      binding.1 ∈ c.parameters ∧ binding.2 ∈ values :=
    fun _ hbinding => List.of_mem_zip hbinding
  obtain ⟨hfilled, hclear⟩ := Instance.html_bindAll (i := ⟨c.html, Scope.empty⟩)
    (fun binding hbinding => hnames _ (hpairs binding hbinding).1)
    (fun binding hbinding => hvalues _ (hpairs binding hbinding).2) hsegments hhtml
  rw [Instance.finish_eq_mapError, scope_filled, filled, hfilled, Template.fill_source hclear]

/-- A template without `$` but in its placeholders and codes, and arguments without `$`:
the expansion is what the segments stand for, one behind the other, and fails where the
first code fails.  Of two parameters of one name the first one counts in placeholders. -/
theorem expand_invocation_of_segments {name : String} {c : Component}
    {segments : List Segment} {arguments : List (List Statement)} {values : List String}
    (hlookup : registry.lookup name = some c)
    (hnames : ∀ parameter ∈ c.parameters, IsParameterName parameter)
    (hhtml : c.html = String.ofList (Template.source segments))
    (hsegments : ∀ s ∈ segments, s.IsClear) (harity : values.length = c.arity)
    (hvalues : List.Forall₂ (Resolves registry evaluator) arguments values)
    (hdollar : ∀ value ∈ values, '$' ∉ value.toList) (sheet : Stylesheet) :
    (∀ texts, List.Forall₂ (fun s text =>
        s.instantiate evaluator ⟨c.parameters.zip values⟩ = .ok text) segments texts →
      (expand registry evaluator [.invocation name arguments] sheet).1 =
        .ok (String.join texts)) ∧
    ∀ before code after cause, segments = before ++ .code code :: after →
      (∀ s ∈ before, ∃ text,
        s.instantiate evaluator ⟨c.parameters.zip values⟩ = .ok text) →
      evaluator code ⟨c.parameters.zip values⟩ = .error cause →
      (expand registry evaluator [.invocation name arguments] sheet).1 =
        .error (.evaluation name cause) := by
  have hvalue : ∀ s : Segment,
      (s.bindAll (c.parameters.zip values)).value evaluator ⟨c.parameters.zip values⟩ =
        s.instantiate evaluator ⟨c.parameters.zip values⟩ :=
    Segment.value_bindAll evaluator ⟨c.parameters.zip values⟩
  rw [expand_invocation hlookup harity hvalues,
    finish_filled hnames hhtml hsegments hdollar]
  constructor
  · intro texts htexts
    have heach : List.Forall₂ (fun s text =>
        s.value evaluator ⟨c.parameters.zip values⟩ = .ok text)
        (segments.map (Segment.bindAll (c.parameters.zip values))) texts := by
      simp only [List.forall₂_map_left_iff, hvalue]
      exact htexts
    rw [Template.render_of_values heach]
    rfl
  · intro before code after cause hsplit hbefore hcode
    have hbound : ∀ other ∈ before.map (Segment.bindAll (c.parameters.zip values)),
        ∃ text, other.value evaluator ⟨c.parameters.zip values⟩ = .ok text := by
      simp only [List.forall_mem_map, hvalue]
      exact hbefore
    have hfails : (Segment.bindAll (c.parameters.zip values) (.code code)).value evaluator
        ⟨c.parameters.zip values⟩ = .error cause := by
      rw [hvalue]
      exact hcode
    rw [hsplit, List.map_append, List.map_cons, Template.render_of_error hbound hfails]
    rfl

/-- A component whose template has a placeholder of a name that is no parameter. -/
def sumComponent : Component :=
  { name := "sum", parameters := ["a", "b"],
    html := "\x7b${b}: ${eval:b + a}${c}, ${eval:a}${a}\x7d" }

def sumSegments : List Segment :=
  [.literal "\x7b", .argument "b", .literal ": ", .code "b + a", .argument "c", .literal ", ",
    .code "a", .argument "a", .literal "\x7d"]

/-- Gives a bound name its value and fails on all other codes. -/
def lookupEvaluator : Evaluator :=
  fun code scope =>
    match scope.get? code with
    | some value => .ok value
    | none => .error (.host code)

/-- Gives a code itself in parentheses. -/
def quoteEvaluator : Evaluator :=
  fun code _ => .ok ("(" ++ code ++ ")")

/-- Values that look like the rest of placeholders. -/
def sumValues : List String :=
  ["\x7bb\x7d", "\x7beval:a\x7d"]

def sumCall : List Statement :=
  [.invocation "sum" (sumValues.map fun value => [.text value])]

theorem expand_invocation_of_segments_sum :
    (expand (Registry.ofComponents [sumComponent]) quoteEvaluator sumCall Stylesheet.empty).1 =
      .ok "\x7b\x7beval:a\x7d: (b + a)${c}, (a)\x7bb\x7d\x7d" ∧
    (expand (Registry.ofComponents [sumComponent]) lookupEvaluator sumCall Stylesheet.empty).1 =
      .error (.evaluation "sum" (.host "b + a")) := by
  have hlookup : (Registry.ofComponents [sumComponent]).lookup "sum" = some sumComponent := by
    decide +kernel
  have hnames : ∀ parameter ∈ sumComponent.parameters, IsParameterName parameter := by
    decide +kernel
  have hhtml : sumComponent.html = String.ofList (Template.source sumSegments) := by
    decide +kernel
  have hsegments : ∀ s ∈ sumSegments, s.IsClear := by
    decide +kernel
  have harity : sumValues.length = sumComponent.arity := rfl
  have hdollar : ∀ value ∈ sumValues, '$' ∉ value.toList := by
    decide +kernel
  have hvalues : ∀ evaluator, List.Forall₂
      (Resolves (Registry.ofComponents [sumComponent]) evaluator)
      (sumValues.map fun value => [.text value]) sumValues := by
    intro evaluator
    rw [List.forall₂_map_left_iff, List.forall₂_same]
    exact fun value _ => resolves_text value
  constructor
  · have htexts : List.Forall₂ (fun s text => s.instantiate quoteEvaluator
        ⟨sumComponent.parameters.zip sumValues⟩ = .ok text) sumSegments
        ["\x7b", "\x7beval:a\x7d", ": ", "(b + a)", "${c}", ", ", "(a)", "\x7bb\x7d",
          "\x7d"] := by
      decide +kernel
    exact (expand_invocation_of_segments hlookup hnames hhtml hsegments harity
      (hvalues quoteEvaluator) hdollar Stylesheet.empty).1 _ htexts
  · have hbefore : ∀ s ∈ sumSegments.take 3, ∃ text, s.instantiate lookupEvaluator
        ⟨sumComponent.parameters.zip sumValues⟩ = .ok text := by
      simp only [sumSegments, List.take_succ_cons, List.take_zero, List.forall_mem_cons]
      exact ⟨⟨_, rfl⟩, ⟨_, rfl⟩, ⟨_, rfl⟩, List.forall_mem_nil _⟩
    exact (expand_invocation_of_segments hlookup hnames hhtml hsegments harity
      (hvalues lookupEvaluator) hdollar Stylesheet.empty).2 _ _ _ _ rfl hbefore rfl

end Expansion
end ComponentMarkup
