import ComponentMarkup.Proofs.Template.Filling
import ComponentMarkup.Proofs.Text.Replacement

/-!
# Templates as rows of segments

A template is written as literals, placeholders of parameters and codes.  When
`$` stands at the front of the latter two only, putting an argument in and filling
the codes work on one segment at a time.
-/

namespace ComponentMarkup
namespace Template

/-!
# Segments and their source
-/

/-- A part of a template as its author means it. -/
inductive Segment where
  | literal (text : String)
  | argument (parameter : String)
  | code (text : String)
deriving DecidableEq

/-- Whether a name can be told from the rest of its placeholder and from a code. -/
def IsParameterName (name : String) : Prop :=
  '$' ∉ name.toList ∧ '\x7d' ∉ name.toList ∧ ':' ∉ name.toList

instance (name : String) : Decidable (IsParameterName name) :=
  inferInstanceAs (Decidable ('$' ∉ name.toList ∧ '\x7d' ∉ name.toList ∧ ':' ∉ name.toList))

def IsCode (text : String) : Prop :=
  text ≠ "" ∧ '$' ∉ text.toList ∧ '\x7d' ∉ text.toList ∧ '\n' ∉ text.toList

instance (text : String) : Decidable (IsCode text) :=
  inferInstanceAs (Decidable
    (text ≠ "" ∧ '$' ∉ text.toList ∧ '\x7d' ∉ text.toList ∧ '\n' ∉ text.toList))

namespace Segment

def source : Segment → List Char
  | .literal text => text.toList
  | .argument parameter => placeholder parameter
  | .code text => codeMark ++ text.toList ++ ['\x7d']

/-- Whether a segment is what its characters say, in view of some parameters. -/
def WellFormed (parameters : List String) : Segment → Prop
  | .literal text => '$' ∉ text.toList
  | .argument parameter => parameter ∈ parameters
  | .code text => IsCode text

instance (parameters : List String) : (s : Segment) → Decidable (s.WellFormed parameters)
  | .literal text => inferInstanceAs (Decidable ('$' ∉ text.toList))
  | .argument parameter => inferInstanceAs (Decidable (parameter ∈ parameters))
  | .code text => inferInstanceAs (Decidable (IsCode text))

/-- Whether a segment can be told from what stands beside it, whatever the parameters. -/
def IsClear : Segment → Prop
  | .literal text => '$' ∉ text.toList
  | .argument parameter => IsParameterName parameter
  | .code text => IsCode text

instance : (s : Segment) → Decidable s.IsClear
  | .literal text => inferInstanceAs (Decidable ('$' ∉ text.toList))
  | .argument parameter => inferInstanceAs (Decidable (IsParameterName parameter))
  | .code text => inferInstanceAs (Decidable (IsCode text))

theorem WellFormed.isClear {parameters : List String} {s : Segment}
    (h : s.WellFormed parameters) (hnames : ∀ name ∈ parameters, IsParameterName name) :
    s.IsClear := by
  cases s with
  | literal text => exact h
  | argument parameter => exact hnames parameter h
  | code text => exact h

def bind (parameter value : String) : Segment → Segment
  | .literal text => .literal text
  | .argument other => if other = parameter then .literal value else .argument other
  | .code text => .code text

end Segment

def source (segments : List Segment) : List Char :=
  segments.flatMap Segment.source

@[simp] theorem source_nil : source [] = [] := rfl

@[simp] theorem source_cons (s : Segment) (rest : List Segment) :
    source (s :: rest) = s.source ++ source rest :=
  List.flatMap_cons

theorem source_subset_of_mem {s : Segment} {segments : List Segment} (h : s ∈ segments) :
    s.source ⊆ source segments :=
  fun _ hc => List.mem_flatMap_of_mem h hc

/-- A code stands in its braces as a parameter does, behind its mark. -/
theorem source_code (text : String) :
    (Segment.code text).source = placeholder ("eval:" ++ text) := by
  simp [Segment.source, placeholder, codeMark]

/-!
# Marks that end a name
-/

theorem eq_of_prefix_of_marked {xs ys more rest : List Char} {a b : Char} (hxs : b ∉ xs)
    (hys : a ∉ ys) (h : xs ++ a :: more <+: ys ++ b :: rest) : xs = ys ∧ a = b := by
  induction xs generalizing ys with
  | nil =>
      cases ys with
      | nil => exact ⟨rfl, (List.cons_prefix_cons.mp h).1⟩
      | cons y others =>
          have hfirst : a = y := (List.cons_prefix_cons.mp h).1
          exact absurd (hfirst ▸ List.mem_cons_self) hys
  | cons x others ih =>
      cases ys with
      | nil =>
          have hfirst : x = b := (List.cons_prefix_cons.mp h).1
          exact absurd (hfirst ▸ List.mem_cons_self) hxs
      | cons y further =>
          obtain ⟨hfirst, hbehind⟩ := List.cons_prefix_cons.mp h
          obtain ⟨hsame, hmark⟩ := ih (fun hmem => hxs (List.mem_cons_of_mem x hmem))
            (fun hmem => hys (List.mem_cons_of_mem y hmem)) hbehind
          exact ⟨by rw [hfirst, hsame], hmark⟩

theorem placeholder_append (name : String) (rest : List Char) :
    placeholder name ++ rest = '$' :: ('\x7b' :: name.toList ++ '\x7d' :: rest) := by
  simp [placeholder]

theorem eq_of_prefix_placeholder {name other : String} {rest : List Char}
    (hname : '\x7d' ∉ name.toList) (hother : '\x7d' ∉ other.toList)
    (h : placeholder name <+: placeholder other ++ rest) : name = other := by
  rw [placeholder_append, ← List.append_nil (placeholder name), placeholder_append,
    List.cons_append, List.cons_append, List.cons_prefix_cons, List.cons_prefix_cons] at h
  exact String.toList_inj.mp (eq_of_prefix_of_marked hname hother h.2.2).1

theorem codeMark_not_prefix_placeholder {name : String} {rest : List Char}
    (h : ':' ∉ name.toList) : ¬ codeMark <+: placeholder name ++ rest := by
  intro hprefix
  rw [placeholder_append, List.cons_append, codeMark, List.cons_prefix_cons,
    List.cons_prefix_cons] at hprefix
  have hmark : '\x7d' ∉ ['e', 'v', 'a', 'l'] := by decide
  have hsame : (':' : Char) = '\x7d' :=
    (eq_of_prefix_of_marked hmark h hprefix.2.2).2
  revert hsame
  decide

/-!
# Putting an argument in
-/

theorem replaceAll_placeholder_of_ne {parameter other : String}
    (hparameter : '\x7d' ∉ parameter.toList) (hbrace : '\x7d' ∉ other.toList)
    (hdollar : '$' ∉ other.toList) (hne : other ≠ parameter) (value rest : List Char) :
    Text.replaceAll (placeholder parameter) value (placeholder other ++ rest) =
      placeholder other ++ Text.replaceAll (placeholder parameter) value rest := by
  have hfront : ¬ placeholder parameter <+:
      '$' :: ('\x7b' :: other.toList ++ ['\x7d'] ++ rest) := by
    intro hprefix
    exact hne (eq_of_prefix_placeholder hparameter hbrace hprefix).symm
  have hbehind : '$' ∉ '\x7b' :: other.toList ++ ['\x7d'] := by
    simp [hdollar]
  show Text.replaceAll (placeholder parameter) value
      ('$' :: ('\x7b' :: other.toList ++ ['\x7d'] ++ rest)) = _
  rw [Text.replaceAll_cons hfront]
  exact congrArg ('$' :: ·) (Text.replaceAll_append_of_not_mem hbehind _ value rest)

theorem replaceAll_segment {parameter : String} {s : Segment}
    (hparameter : IsParameterName parameter) (hs : s.IsClear) (value : String)
    (rest : List Char) :
    Text.replaceAll (placeholder parameter) value.toList (s.source ++ rest) =
      (s.bind parameter value).source ++
        Text.replaceAll (placeholder parameter) value.toList rest := by
  obtain ⟨_, hbrace, hcolon⟩ := hparameter
  cases s with
  | literal text => exact Text.replaceAll_append_of_not_mem hs _ value.toList rest
  | argument other =>
      by_cases hsame : other = parameter
      · rw [hsame, Segment.bind, if_pos rfl]
        exact Text.replaceAll_pattern (by simp [placeholder]) value.toList rest
      · obtain ⟨hdollar, hotherBrace, _⟩ := hs
        rw [Segment.bind, if_neg hsame]
        exact replaceAll_placeholder_of_ne hbrace hotherBrace hdollar hsame value.toList rest
  | code text =>
      obtain ⟨_, hdollar, hotherBrace, _⟩ := hs
      rw [Segment.bind, source_code]
      refine replaceAll_placeholder_of_ne hbrace ?_ ?_ ?_ value.toList rest
      · simp [hotherBrace]
      · simp [hdollar]
      · rintro rfl
        exact hcolon (by simp)

/-- An argument is put into every segment by itself. -/
theorem substitute_source {parameter : String} {segments : List Segment}
    (hparameter : IsParameterName parameter) (hsegments : ∀ s ∈ segments, s.IsClear)
    (value : String) :
    substitute parameter value (String.ofList (source segments)) =
      String.ofList (source (segments.map (Segment.bind parameter value))) := by
  rw [substitute, String.toList_ofList]
  apply congrArg String.ofList
  induction segments with
  | nil => exact Text.replaceAll_nil (by simp [placeholder]) value.toList
  | cons s rest ih =>
      obtain ⟨hs, hrest⟩ := List.forall_mem_cons.mp hsegments
      rw [source_cons, replaceAll_segment hparameter hs, ih hrest]
      rfl

/-- An argument without `$` leaves a segment clear. -/
theorem Segment.isClear_bind {parameter value : String} {s : Segment}
    (hvalue : '$' ∉ value.toList) (hs : s.IsClear) : (s.bind parameter value).IsClear := by
  cases s with
  | literal text => exact hs
  | argument other =>
      rw [bind]
      split
      · exact hvalue
      · exact hs
  | code text => exact hs

/-- An argument without `$` leaves segments that are what their characters say. -/
theorem Segment.wellFormed_bind {parameter value : String} {others : List String} {s : Segment}
    (hvalue : '$' ∉ value.toList) (hs : s.WellFormed (parameter :: others)) :
    (s.bind parameter value).WellFormed others := by
  cases s with
  | literal text => exact hs
  | argument other =>
      rw [bind]
      split
      · exact hvalue
      · rename_i hne
        exact (List.mem_cons.mp hs).resolve_left hne
  | code text => exact hs

theorem Segment.code_mem_map_bind {parameter value code : String} {segments : List Segment}
    (h : .code code ∈ segments.map (Segment.bind parameter value)) : .code code ∈ segments := by
  rcases List.mem_map.mp h with ⟨s, hs, hbind⟩
  cases s with
  | literal text => cases hbind
  | argument other =>
      rw [bind] at hbind
      split at hbind <;> cases hbind
  | code text => exact hbind ▸ hs

/-!
# Filling the codes
-/

def Segment.value (evaluator : Evaluator) (scope : Scope) :
    Segment → Except Script.EvalError String
  | .literal text => .ok text
  | .argument parameter => .ok (String.ofList (placeholder parameter))
  | .code text => evaluator text scope

/-- What some segments stand for, one behind the other. -/
def render (evaluator : Evaluator) (scope : Scope) :
    List Segment → Except Script.EvalError String
  | [] => .ok ""
  | s :: rest =>
      (s.value evaluator scope).bind fun value =>
        (render evaluator scope rest).map (value ++ ·)

theorem codeAtFront?_code {text : String} (hempty : text ≠ "")
    (hclosing : '\x7d' ∉ text.toList) (hline : '\n' ∉ text.toList) (rest : List Char) :
    codeAtFront? ((Segment.code text).source ++ rest) = some (text.toList, rest) := by
  cases htext : text.toList with
  | nil => exact absurd (String.toList_eq_nil_iff.mp htext) hempty
  | cons c more =>
      rw [htext] at hclosing hline
      refine codeAtFront?_eq_some_iff.mpr ⟨?_, c, more, rfl, ?_, ?_⟩
      · simp [Segment.source, htext]
      · exact fun heq => hline (heq ▸ List.mem_cons_self)
      · intro d hd
        rw [continuesCode_iff]
        constructor
        · exact fun heq => hclosing (heq ▸ List.mem_cons_of_mem c hd)
        · exact fun heq => hline (heq ▸ List.mem_cons_of_mem c hd)

/-- The placeholder of a parameter is no code. -/
theorem fill_placeholder {name : String} (h : IsParameterName name) (evaluator : Evaluator)
    (scope : Scope) (rest : List Char) :
    fill evaluator scope (String.ofList (placeholder name ++ rest)) =
      (fill evaluator scope (String.ofList rest)).map
        (String.ofList (placeholder name) ++ ·) := by
  obtain ⟨hdollar, _, hcolon⟩ := h
  have hfront : codeAtFront? (placeholder name ++ rest) = none :=
    codeAtFront?_eq_none (codeMark_not_prefix_placeholder hcolon)
  have hbehind : '$' ∉ '\x7b' :: name.toList ++ ['\x7d'] := by
    simp [hdollar]
  have hsplit : placeholder name = '$' :: ('\x7b' :: name.toList ++ ['\x7d']) := rfl
  rw [hsplit, List.cons_append] at hfront ⊢
  rw [fill_cons evaluator scope hfront, fill_append_of_not_mem evaluator scope hbehind]
  cases fill evaluator scope (String.ofList rest) with
  | error cause => rfl
  | ok text =>
      rw [String.ofList_cons]
      simp only [Except.map, String.append_assoc]

/-- Filling finds the codes that were written and no other. -/
theorem fill_source {segments : List Segment} (h : ∀ s ∈ segments, s.IsClear)
    (evaluator : Evaluator) (scope : Scope) :
    fill evaluator scope (String.ofList (source segments)) =
      render evaluator scope segments := by
  induction segments with
  | nil => exact fill_nil evaluator scope
  | cons s rest ih =>
      obtain ⟨hs, hothers⟩ := List.forall_mem_cons.mp h
      have hrest := ih hothers
      rw [source_cons]
      cases s with
      | literal text =>
          rw [Segment.source, fill_append_of_not_mem evaluator scope hs, hrest,
            String.ofList_toList]
          rfl
      | argument parameter =>
          rw [Segment.source, fill_placeholder hs, hrest]
          rfl
      | code text =>
          obtain ⟨hempty, _, hclosing, hline⟩ := hs
          have hfront := codeAtFront?_code hempty hclosing hline (source rest)
          rw [fill_code evaluator scope hfront, hrest,
            String.ofList_toList]
          rfl

theorem render_congr {evaluator other : Evaluator} {scope : Scope} {segments : List Segment}
    (h : ∀ code, .code code ∈ segments → evaluator code scope = other code scope) :
    render evaluator scope segments = render other scope segments := by
  induction segments with
  | nil => rfl
  | cons s rest ih =>
      have hs : s.value evaluator scope = s.value other scope := by
        cases s with
        | literal text => rfl
        | argument parameter => rfl
        | code text => exact h text List.mem_cons_self
      rw [render, render, hs, ih fun code hcode => h code (List.mem_cons_of_mem s hcode)]

theorem not_mem_of_render {evaluator : Evaluator} {scope : Scope} {segments : List Segment}
    {c : Char} {text : String}
    (hsegments : ∀ s ∈ segments, ∀ value, s.value evaluator scope = .ok value →
      c ∉ value.toList)
    (h : render evaluator scope segments = .ok text) : c ∉ text.toList := by
  induction segments generalizing text with
  | nil =>
      cases h
      exact List.not_mem_nil
  | cons s rest ih =>
      rw [render] at h
      cases hvalue : s.value evaluator scope with
      | error cause =>
          rw [hvalue] at h
          cases h
      | ok value =>
          cases hrest : render evaluator scope rest with
          | error cause =>
              rw [hvalue, hrest] at h
              cases h
          | ok more =>
              rw [hvalue, hrest] at h
              cases h
              rw [String.toList_append, List.mem_append, not_or]
              constructor
              · exact hsegments s List.mem_cons_self value hvalue
              · exact ih (fun other hother => hsegments other (List.mem_cons_of_mem s hother))
                  hrest

end Template
end ComponentMarkup
