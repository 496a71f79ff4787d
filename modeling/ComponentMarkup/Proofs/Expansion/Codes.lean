import ComponentMarkup.Proofs.Expansion.Instances
import ComponentMarkup.Proofs.Template.Scan

/-!
# Codes that an expansion hands over

A template with its arguments in place is scanned for codes, and the evaluator is given
these codes and no other.  A code ends at the first brace behind its first character.
That first character can be a brace itself.
-/

namespace ComponentMarkup

open Markup (Statement)
open Template (Evaluator Piece Finds Scans ShortestCode StartsWithCode Visits codeMark)

namespace Template

/-!
# Evaluators and the codes of a text
-/

section Fill

variable {evaluator other : Evaluator} {scope : Scope}

theorem fillOnto_congr {pieces : List Piece}
    (h : ∀ code, .code code ∈ pieces → evaluator code scope = other code scope)
    (out : String) : fillOnto evaluator scope out pieces = fillOnto other scope out pieces := by
  induction pieces generalizing out with
  | nil => rw [fillOnto, fillOnto]
  | cons piece rest ih =>
      have hrest := ih fun code hcode => h code (List.mem_cons_of_mem piece hcode)
      cases piece with
      | literal text =>
          rw [fillOnto, fillOnto]
          exact hrest (out ++ text)
      | code code =>
          rw [fillOnto, fillOnto, ← h code List.mem_cons_self]
          cases evaluator code scope with
          | error cause => rfl
          | ok value => exact hrest (out ++ value)

/-- Only what the evaluator makes of the codes that are found matters. -/
theorem fill_congr {html : String}
    (h : ∀ code, Finds html.toList code.toList → evaluator code scope = other code scope) :
    fill evaluator scope html = fill other scope html := by
  rw [fill_eq_fillOnto, fill_eq_fillOnto]
  exact fillOnto_congr (fun code hcode => h code (code_mem_pieces_iff.mp hcode)) ""

theorem fillOnto_of_failing {code : String} {cause : Script.EvalError} {pieces : List Piece}
    (hfails : evaluator code scope = .error cause)
    (hothers : ∀ other, other ≠ code → ∃ value, evaluator other scope = .ok value)
    (h : .code code ∈ pieces) (out : String) :
    fillOnto evaluator scope out pieces = .error cause := by
  induction pieces generalizing out with
  | nil => cases h
  | cons piece rest ih =>
      cases piece with
      | literal text =>
          rw [fillOnto]
          exact ih (List.mem_of_ne_of_mem (by simp) h) (out ++ text)
      | code first =>
          rw [fillOnto]
          by_cases hfirst : first = code
          · rw [hfirst, hfails]
          · obtain ⟨value, hvalue⟩ := hothers first hfirst
            have hrest : .code code ∈ rest :=
              List.mem_of_ne_of_mem (fun heq => hfirst (Piece.code.inj heq).symm) h
            rw [hvalue]
            exact ih hrest (out ++ value)

/-- A code that is found is handed over if no other code fails. -/
theorem fill_of_failing {html code : String} {cause : Script.EvalError}
    (hfails : evaluator code scope = .error cause)
    (hothers : ∀ other, other ≠ code → ∃ value, evaluator other scope = .ok value)
    (h : Finds html.toList code.toList) : fill evaluator scope html = .error cause := by
  rw [fill_eq_fillOnto]
  exact fillOnto_of_failing hfails hothers (code_mem_pieces_iff.mpr h) ""

end Fill

/-!
# Where a code ends
-/

/-- A code without a brace, which ends at the first one behind its mark. -/
def EndsAtFirstBrace (html code : List Char) : Prop :=
  '\x7d' ∉ code ∧ ∃ before after, html = before ++ codeMark ++ code ++ '\x7d' :: after

/-- A code on one line, which ends at the first brace behind its first character. -/
def EndsBehindFirst (html code : List Char) : Prop :=
  ∃ before first more after, html = before ++ codeMark ++ (first :: more) ++ '\x7d' :: after ∧
    code = first :: more ∧ '\n' ∉ code ∧ '\x7d' ∉ more

/-- The scan comes to a mark with a brace directly behind it and another one on the same
line. -/
def MeetsBrace (html : List Char) : Prop :=
  ∃ line after, Visits html (codeMark ++ '\x7d' :: line ++ '\x7d' :: after) ∧ '\n' ∉ line

section Braces

variable {html code : List Char}

theorem Finds.endsBehindFirst (h : Finds html code) : EndsBehindFirst html code := by
  obtain ⟨place, after, hplace, hcode⟩ := h
  obtain ⟨htext, first, more, rfl, _, hmore⟩ :=
    codeAtFront?_eq_some_iff.mp (shortestCode_iff.mp hcode)
  obtain ⟨before, rfl⟩ := hplace.isSuffix
  refine ⟨before, first, more, after, ?_, rfl, hcode.line, ?_⟩
  · rw [htext]
    simp only [List.append_assoc]
  · exact fun hbrace => (continuesCode_iff.mp (hmore _ hbrace)).1 rfl

theorem meetsBrace_iff : MeetsBrace html ↔ ∃ more, Finds html ('\x7d' :: more) := by
  constructor
  · rintro ⟨line, after, hplace, hline⟩
    have hstarts : StartsWithCode (codeMark ++ '\x7d' :: line ++ '\x7d' :: after)
        ('\x7d' :: line) after :=
      ⟨rfl, List.cons_ne_nil _ line, by simp [hline]⟩
    obtain ⟨code, behind, hfront⟩ := hstarts.exists_codeAtFront?
    obtain ⟨htext, first, more, rfl, _, _⟩ := codeAtFront?_eq_some_iff.mp hfront
    rw [List.append_assoc, List.append_assoc, List.append_cancel_left_eq] at htext
    obtain rfl : '\x7d' = first := (List.cons.inj htext).1
    exact ⟨more, _, behind, hplace, shortestCode_iff.mpr hfront⟩
  · rintro ⟨more, place, after, hplace, hcode⟩
    have hline := hcode.line
    rw [hcode.text] at hplace
    rw [List.mem_cons, not_or] at hline
    exact ⟨more, after, hplace, hline.2⟩

theorem Finds.endsAtFirstBrace (h : Finds html code) (hbrace : ¬ MeetsBrace html) :
    EndsAtFirstBrace html code := by
  obtain ⟨before, first, more, after, hhtml, rfl, _, hmore⟩ := h.endsBehindFirst
  refine ⟨?_, before, after, hhtml⟩
  rw [List.mem_cons, not_or]
  refine ⟨?_, hmore⟩
  rintro rfl
  exact hbrace (meetsBrace_iff.mpr ⟨more, h⟩)

end Braces

end Template

namespace Expansion

variable {registry : Registry} {evaluator other : Evaluator}

/-- Filling in the codes of a template whose arguments are in place is one scan of it.
Where no code is marked, what the scan gives is the text itself. -/
theorem Instance.finish_eq_iff_scans (i : Instance) (evaluator : Evaluator) (name : String) :
    (∀ result, i.finish evaluator name = result ↔
      ∃ scanned, Scans evaluator i.scope i.html.toList scanned ∧
        result = scanned.mapError (.evaluation name)) ∧
    (¬ codeMark <:+: i.html.toList → Scans evaluator i.scope i.html.toList (.ok i.html)) := by
  constructor
  · intro result
    rw [finish_eq_mapError]
    constructor
    · rintro rfl
      exact ⟨_, Template.fill_eq_iff_scans.mp rfl, rfl⟩
    · rintro ⟨scanned, hscan, rfl⟩
      rw [Template.fill_eq_iff_scans.mpr hscan]
  · exact Template.scans_of_unmarked

/-!
# Codes that are handed over
-/

/-- An evaluator that fails on one code in one scope. -/
def failingOn (evaluator : Evaluator) (code : String) (view : Scope)
    (cause : Script.EvalError) : Evaluator :=
  fun other scope => if other = code ∧ scope = view then .error cause else evaluator other scope

theorem failingOn_self (evaluator : Evaluator) (code : String) (view : Scope)
    (cause : Script.EvalError) : failingOn evaluator code view cause code view = .error cause :=
  if_pos ⟨rfl, rfl⟩

theorem failingOn_of_ne {code other : String} (h : other ≠ code) (view scope : Scope)
    (cause : Script.EvalError) :
    failingOn evaluator code view cause other scope = evaluator other scope :=
  if_neg fun hsame => h hsame.1

/-- Whether expanding some statements hands a code to the evaluator: there is a scope in
which whatever cause the evaluator fails with makes the expansion fail with it. -/
def Asks (registry : Registry) (evaluator : Evaluator) (statements : List Statement)
    (code : String) : Prop :=
  ∃ view, ∀ cause, ∃ name,
    (expand registry (failingOn evaluator code view cause) statements Stylesheet.empty).1 =
      .error (.evaluation name cause)

/-- What is handed over makes a difference. -/
theorem Asks.exists_ne {statements : List Statement} {code : String}
    (h : Asks registry evaluator statements code) :
    ∃ view cause,
      (expand registry (failingOn evaluator code view cause) statements Stylesheet.empty).1 ≠
        (expand registry evaluator statements Stylesheet.empty).1 := by
  obtain ⟨view, hfails⟩ := h
  -- One outcome cannot have both of two causes.
  by_contra hsame
  obtain ⟨name, hfirst⟩ := hfails (.reference code)
  obtain ⟨another, hsecond⟩ := hfails (.host code)
  have hboth := not_exists.mp hsame view
  rw [not_not.mp (not_exists.mp hboth (.reference code))] at hfirst
  rw [not_not.mp (not_exists.mp hboth (.host code)), hfirst] at hsecond
  cases hsecond

theorem bindOnto_eq_bindAll {arguments : List (List Statement)} {parameters : List String}
    (hlength : arguments.length = parameters.length) {i result : Instance}
    {sheet after : Stylesheet}
    (h : bindOnto registry evaluator i sheet parameters arguments = (.ok result, after)) :
    ∃ values, values.length = parameters.length ∧
      result = i.bindAll (parameters.zip values) := by
  induction arguments generalizing parameters i sheet with
  | nil =>
      rw [List.eq_nil_of_length_eq_zero hlength.symm]
      rw [bindOnto] at h
      cases h
      exact ⟨[], rfl, rfl⟩
  | cons argument rest ih =>
      cases parameters with
      | nil => cases hlength
      | cons parameter others =>
          obtain ⟨value, expanded, _, hrest⟩ := bindOnto_cons_eq_ok h
          obtain ⟨values, hvalues, hresult⟩ := ih (Nat.succ.inj hlength) hrest
          exact ⟨value :: values, congrArg Nat.succ hvalues, hresult⟩

/-- Evaluators that fill in every template of the registry alike expand alike. -/
theorem expandOnto_eq_of_finish
    (h : ∀ name c values, registry.lookup name = some c → values.length = c.arity →
      (filled c values).finish evaluator name = (filled c values).finish other name)
    (statements : List Statement) (out : String) (sheet : Stylesheet) :
    expandOnto registry evaluator out sheet statements =
      expandOnto registry other out sheet statements := by
  induction statements using Statement.listInduction generalizing out sheet with
  | nil => rw [expandOnto, expandOnto]
  | text content rest ih =>
      rw [expandOnto, expandOnto]
      exact ih (out ++ content) sheet
  | invocation name arguments rest harguments ih =>
      apply expandOnto_invocation_congr
      · exact fun argument hmem => harguments argument hmem ""
      · intro c entered bound after hlookup harity hbind
        obtain ⟨values, hvalues, rfl⟩ := bindOnto_eq_bindAll harity hbind
        exact h name c values hlookup hvalues
      · exact ih

theorem finish_failingOn {i : Instance} {code : String}
    (h : ¬ Finds i.html.toList code.toList) (view : Scope) (cause : Script.EvalError)
    (name : String) :
    i.finish (failingOn evaluator code view cause) name = i.finish evaluator name := by
  rw [Instance.finish_eq_mapError, Instance.finish_eq_mapError]
  refine congrArg _ (Template.fill_congr fun found hfound => failingOn_of_ne ?_ _ _ _)
  rintro rfl
  exact h hfound

/-- A code that is handed over is found in a template with its arguments in place. -/
theorem Asks.exists_finds {statements : List Statement} {code : String}
    (h : Asks registry evaluator statements code) :
    ∃ name c values, registry.lookup name = some c ∧ values.length = c.arity ∧
      Finds (filled c values).html.toList code.toList := by
  obtain ⟨view, cause, hne⟩ := h.exists_ne
  by_contra hnone
  simp only [not_exists, not_and] at hnone
  apply hne
  rw [expand, expand, expandOnto_eq_of_finish fun name c values hlookup harity =>
    finish_failingOn (hnone name c values hlookup harity) view cause name]

section Invocation

variable {name : String} {c : Component} {values : List String} {code : String}

/-- An invocation with texts for arguments. -/
def call (name : String) (values : List String) : List Statement :=
  [.invocation name (values.map fun value => [.text value])]

theorem expand_call (hlookup : registry.lookup name = some c) (harity : values.length = c.arity)
    (evaluator : Evaluator) (sheet : Stylesheet) :
    (expand registry evaluator (call name values) sheet).1 =
      (filled c values).finish evaluator name := by
  refine expand_invocation hlookup harity ?_ sheet
  rw [List.forall₂_map_left_iff, List.forall₂_same]
  exact fun value _ => resolves_text value

theorem Asks.finds (hlookup : registry.lookup name = some c) (harity : values.length = c.arity)
    (h : Asks registry evaluator (call name values) code) :
    Finds (filled c values).html.toList code.toList := by
  obtain ⟨view, cause, hne⟩ := h.exists_ne
  by_contra hnone
  rw [expand_call hlookup harity, expand_call hlookup harity] at hne
  exact hne (finish_failingOn hnone view cause name)

/-- An evaluator without failures is handed every code that is found. -/
theorem asks_of_finds (hlookup : registry.lookup name = some c)
    (harity : values.length = c.arity)
    (htotal : ∀ other scope, ∃ value, evaluator other scope = .ok value)
    (h : Finds (filled c values).html.toList code.toList) :
    Asks registry evaluator (call name values) code := by
  refine ⟨(filled c values).scope, fun cause => ⟨name, ?_⟩⟩
  rw [expand_call hlookup harity, Instance.finish_eq_mapError,
    Template.fill_of_failing (failingOn_self _ _ _ cause) ?_ h]
  · rfl
  · intro other hne
    rw [failingOn_of_ne hne]
    exact htotal other _

end Invocation

/-!
# Braces in codes
-/

/-- Every code that is handed over ends at the first brace behind its first character, and at
the first one behind its mark if the scan of its template comes to no mark with a brace
directly behind it and another one on the same line.  For given arguments this is also
necessary: else some evaluator is handed a code with a brace. -/
theorem asks_endsAtFirstBrace_iff (registry : Registry) :
    (∀ evaluator statements code, Asks registry evaluator statements code →
      ∃ name c values, registry.lookup name = some c ∧ values.length = c.arity ∧
        Template.EndsBehindFirst (filled c values).html.toList code.toList ∧
        (¬ Template.MeetsBrace (filled c values).html.toList →
          Template.EndsAtFirstBrace (filled c values).html.toList code.toList)) ∧
    ∀ name c values, registry.lookup name = some c → values.length = c.arity →
      ((∀ evaluator code, Asks registry evaluator (call name values) code →
          Template.EndsAtFirstBrace (filled c values).html.toList code.toList) ↔
        ¬ Template.MeetsBrace (filled c values).html.toList) := by
  constructor
  · intro evaluator statements code h
    obtain ⟨name, c, values, hlookup, harity, hfinds⟩ := h.exists_finds
    exact ⟨name, c, values, hlookup, harity, hfinds.endsBehindFirst, hfinds.endsAtFirstBrace⟩
  · intro name c values hlookup harity
    constructor
    · intro hends hmeets
      obtain ⟨more, hfinds⟩ := Template.meetsBrace_iff.mp hmeets
      have hasks : Asks registry (fun _ _ => .ok "") (call name values)
          (String.ofList ('\x7d' :: more)) := by
        refine asks_of_finds hlookup harity (fun _ _ => ⟨"", rfl⟩) ?_
        rw [String.toList_ofList]
        exact hfinds
      have hbrace := (hends _ _ hasks).1
      rw [String.toList_ofList] at hbrace
      exact hbrace List.mem_cons_self
    · intro hmeets evaluator code h
      exact (h.finds hlookup harity).endsAtFirstBrace hmeets

/-- A component whose template has a code that is a brace. -/
def braceComponent : Component :=
  { name := "q", parameters := [], html := "$\x7beval:\x7d\x7d" }

theorem asks_brace :
    Asks (Registry.ofComponents [braceComponent]) quoteEvaluator (call "q" []) "\x7d" ∧
      '\x7d' ∈ "\x7d".toList := by
  have hlookup : (Registry.ofComponents [braceComponent]).lookup "q" = some braceComponent := by
    decide +kernel
  have hcode : ShortestCode braceComponent.html.toList ['\x7d'] [] := by
    rw [Template.shortestCode_iff]
    decide +kernel
  constructor
  · exact asks_of_finds hlookup rfl (fun _ _ => ⟨_, rfl⟩) ⟨_, [], .here, hcode⟩
  · decide

end Expansion
end ComponentMarkup
