import ComponentMarkup.Proofs.Compiler.Documents
import ComponentMarkup.Proofs.Template.Segments

/-!
# Text does not become code

The templates of a closed registry are rows of segments, and `$` stands in their
placeholders and codes only.  Text without `$` can then be put into them at any
depth: whatever braces it has, the codes that are evaluated are those that the
templates write.
-/

namespace ComponentMarkup

open Markup (Statement Token)
open Template (Evaluator Segment IsParameterName)

/-!
# Closed registries
-/

/-- Whether the template of a component is a row of segments. -/
def Component.ReadsAs (c : Component) (segments : List Segment) : Prop :=
  c.html = String.ofList (Template.source segments) ∧
    ∀ s ∈ segments, s.WellFormed c.parameters

/-- A component whose template is text without `$`, placeholders of its own
parameters and codes. -/
structure Component.Closed (c : Component) : Prop where
  names : ∀ name ∈ c.parameters, IsParameterName name
  template : ∃ segments, c.ReadsAs segments

theorem isParameterName_of_isWordChar {name : String}
    (h : name.toList.all Markup.isWordChar = true) : IsParameterName name := by
  rw [List.all_eq_true] at h
  refine ⟨?_, ?_, ?_⟩ <;> intro hmem <;> exact absurd (h _ hmem) (by decide)

theorem Component.closed_of_segments {c : Component} {segments : List Segment}
    (hnames : ∀ name ∈ c.parameters, name.toList.all Markup.isWordChar = true)
    (hhtml : c.html = String.ofList (Template.source segments))
    (hsegments : ∀ s ∈ segments, s.WellFormed c.parameters) : c.Closed where
  names := fun name hname => isParameterName_of_isWordChar (hnames name hname)
  template := ⟨segments, hhtml, hsegments⟩

namespace Registry

def Closed (r : Registry) : Prop :=
  ∀ name c, r.lookup name = some c → c.Closed

/-- Whether a template of the registry has some code. -/
def Writes (r : Registry) (code : String) : Prop :=
  ∃ name c segments, r.lookup name = some c ∧ c.ReadsAs segments ∧ .code code ∈ segments

theorem mem_of_lookup_ofComponents {components : List Component} {name : String}
    {c : Component} (h : (ofComponents components).lookup name = some c) : c ∈ components := by
  have hfold : ∀ (others : List Component) (r : Registry),
      (others.foldl add r).lookup name = some c → r.lookup name = some c ∨ c ∈ others := by
    intro others
    induction others with
    | nil => exact fun r hr => Or.inl hr
    | cons next rest ih =>
        intro r hr
        rcases ih (r.add next) hr with hadd | hmem
        · rw [lookup_add] at hadd
          split at hadd
          · cases hadd
            exact Or.inr List.mem_cons_self
          · exact Or.inl hadd
        · exact Or.inr (List.mem_cons_of_mem next hmem)
  rcases hfold components empty h with hempty | hmem
  · cases hempty
  · exact hmem

theorem closed_ofComponents {components : List Component}
    (h : ∀ c ∈ components, c.Closed) : (ofComponents components).Closed :=
  fun _ c hc => h c (mem_of_lookup_ofComponents hc)

/-- Written code has the characters of some template. -/
theorem Writes.subset_html {r : Registry} {code : String} (h : r.Writes code) :
    ∃ name c, r.lookup name = some c ∧ code.toList ⊆ c.html.toList := by
  rcases h with ⟨name, c, segments, hlookup, ⟨hhtml, _⟩, hcode⟩
  refine ⟨name, c, hlookup, ?_⟩
  rw [hhtml, String.toList_ofList]
  intro d hd
  refine Template.source_subset_of_mem hcode ?_
  rw [Segment.source, List.mem_append, List.mem_append]
  exact Or.inl (Or.inr hd)

end Registry

/-- No value that is bound has a `$`. -/
def Scope.DollarFree (s : Scope) : Prop :=
  ∀ binding ∈ s.bindings, '$' ∉ binding.2.toList

theorem Scope.DollarFree.not_mem_of_get? {s : Scope} {name value : String}
    (h : s.DollarFree) (hget : s.get? name = some value) : '$' ∉ value.toList := by
  have hmem : (name, value) ∈ s.bindings.reverse := Dictionary.mem_of_lookup hget
  exact h (name, value) (List.mem_reverse.mp hmem)

/-- The codes of a registry have values without `$` where the scope has none. -/
def Registry.DollarFree (r : Registry) (evaluator : Evaluator) : Prop :=
  ∀ code scope value, r.Writes code → scope.DollarFree →
    evaluator code scope = .ok value → '$' ∉ value.toList

/-- Two evaluators give the codes of a registry the same results where the scope
has no `$`. -/
def Registry.Agree (r : Registry) (evaluator other : Evaluator) : Prop :=
  ∀ code scope, r.Writes code → scope.DollarFree →
    evaluator code scope = other code scope

namespace Expansion

variable {registry : Registry} {evaluator other : Evaluator}

/-!
# Instances of templates
-/

/-- A template of the registry with arguments without `$` in place, and the
parameters that are still to be bound. -/
structure Instance.Ready (registry : Registry) (parameters : List String) (i : Instance) :
    Prop where
  names : ∀ name ∈ parameters, IsParameterName name
  template : ∃ segments, i.html = String.ofList (Template.source segments) ∧
    (∀ s ∈ segments, s.WellFormed parameters) ∧
      ∀ code, .code code ∈ segments → registry.Writes code
  scope : i.scope.DollarFree

theorem Instance.ready_of_lookup {name : String} {c : Component} (hclosed : registry.Closed)
    (h : registry.lookup name = some c) :
    Instance.Ready registry c.parameters ⟨c.html, Scope.empty⟩ := by
  obtain ⟨hnames, segments, hreads⟩ := hclosed name c h
  constructor
  · exact hnames
  · exact ⟨segments, hreads.1, hreads.2, fun code hcode => ⟨name, c, segments, h, hreads, hcode⟩⟩
  · intro binding hbinding
    cases hbinding

namespace Instance.Ready

variable {i : Instance}

theorem bind {parameter value : String} {others : List String}
    (h : i.Ready registry (parameter :: others)) (hvalue : '$' ∉ value.toList) :
    (i.bind parameter value).Ready registry others := by
  obtain ⟨hnames, ⟨segments, hhtml, hsegments, hcodes⟩, hscope⟩ := h
  constructor
  · exact fun name hname => hnames name (List.mem_cons_of_mem parameter hname)
  · refine ⟨segments.map (Segment.bind parameter value), ?_, ?_, ?_⟩
    · rw [Instance.bind, hhtml]
      exact Template.substitute_source (hnames parameter List.mem_cons_self)
        (fun s hs => (hsegments s hs).isClear hnames) value
    · intro s hs
      rcases List.mem_map.mp hs with ⟨before, hbefore, rfl⟩
      exact Segment.wellFormed_bind hvalue (hsegments before hbefore)
    · intro code hcode
      exact hcodes code (Segment.code_mem_map_bind hcode)
  · intro binding hbinding
    rcases List.mem_append.mp hbinding with hearlier | hnew
    · exact hscope binding hearlier
    · rw [List.mem_singleton.mp hnew]
      exact hvalue

theorem finish_congr (h : i.Ready registry []) (hagree : registry.Agree evaluator other)
    (name : String) : i.finish evaluator name = i.finish other name := by
  obtain ⟨hnames, ⟨segments, hhtml, hsegments, hcodes⟩, hscope⟩ := h
  have hrender : Template.render evaluator i.scope segments =
      Template.render other i.scope segments :=
    Template.render_congr fun code hcode => hagree code i.scope (hcodes code hcode) hscope
  have hclear : ∀ s ∈ segments, s.IsClear := fun s hs => (hsegments s hs).isClear hnames
  rw [finish, finish, hhtml, Template.fill_source hclear, Template.fill_source hclear, hrender]

theorem not_mem_of_finish {name text : String} (h : i.Ready registry [])
    (hfree : registry.DollarFree evaluator) (hfinish : i.finish evaluator name = .ok text) :
    '$' ∉ text.toList := by
  obtain ⟨hnames, ⟨segments, hhtml, hsegments, hcodes⟩, hscope⟩ := h
  rw [finish, hhtml, Template.fill_source fun s hs => (hsegments s hs).isClear hnames]
    at hfinish
  cases hrender : Template.render evaluator i.scope segments with
  | error cause =>
      rw [hrender] at hfinish
      cases hfinish
  | ok filled =>
      rw [hrender] at hfinish
      cases hfinish
      refine Template.not_mem_of_render ?_ hrender
      intro s hs value hvalue
      have hwell := hsegments s hs
      cases s with
      | literal content =>
          cases hvalue
          exact hwell
      | argument parameter => cases hwell
      | code code => exact hfree code i.scope value (hcodes code hs) hscope hvalue

end Instance.Ready

/-!
# Texts without dollars
-/

/-- No text at any depth has a `$`. -/
def TextsDollarFree (statements : List Statement) : Prop :=
  ∀ content, .text content ∈ Statement.withinAll statements → '$' ∉ content.toList

namespace TextsDollarFree

variable {rest : List Statement}

theorem content {content : String} (h : TextsDollarFree (.text content :: rest)) :
    '$' ∉ content.toList :=
  h content List.mem_cons_self

theorem tail {s : Statement} (h : TextsDollarFree (s :: rest)) : TextsDollarFree rest :=
  fun content hcontent => h content (List.mem_append_right s.within hcontent)

theorem argument {name : String} {arguments : List (List Statement)}
    (h : TextsDollarFree (.invocation name arguments :: rest)) {argument : List Statement}
    (hargument : argument ∈ arguments) : TextsDollarFree argument := by
  intro content hcontent
  have hinside : .text content ∈ Statement.withinArguments arguments :=
    Statement.mem_withinArguments.mpr ⟨argument, hargument, hcontent⟩
  exact h content (List.mem_append_left _ (List.mem_cons_of_mem _ hinside))

end TextsDollarFree

/-!
# One expansion

Whatever is written and whatever is bound has no `$`.
-/

/-- Whether these statements add no `$` to what is written. -/
def AddsNoDollar (registry : Registry) (evaluator : Evaluator) (statements : List Statement) :
    Prop :=
  ∀ out value sheet after, '$' ∉ out.toList →
    expandOnto registry evaluator out sheet statements = (.ok value, after) → '$' ∉ value.toList

theorem ready_of_bindOnto {arguments : List (List Statement)}
    (harguments : ∀ argument ∈ arguments, AddsNoDollar registry evaluator argument)
    {parameters : List String} (hlength : arguments.length = parameters.length)
    {filled result : Instance} {sheet after : Stylesheet}
    (hfilled : filled.Ready registry parameters)
    (h : bindOnto registry evaluator filled sheet parameters arguments = (.ok result, after)) :
    result.Ready registry [] := by
  induction arguments generalizing parameters filled sheet with
  | nil =>
      rw [List.eq_nil_of_length_eq_zero hlength.symm] at hfilled
      rw [bindOnto] at h
      cases h
      exact hfilled
  | cons argument rest ih =>
      cases parameters with
      | nil => cases hlength
      | cons parameter others =>
          rcases bindOnto_cons_eq_ok h with ⟨value, expanded, hexpand, hrest⟩
          have hvalue : '$' ∉ value.toList :=
            harguments argument List.mem_cons_self "" value sheet expanded List.not_mem_nil hexpand
          apply ih
          · exact fun other hother => harguments other (List.mem_cons_of_mem argument hother)
          · exact Nat.succ.inj hlength
          · exact hfilled.bind hvalue
          · exact hrest

theorem addsNoDollar (hclosed : registry.Closed) (hfree : registry.DollarFree evaluator)
    {statements : List Statement} (htexts : TextsDollarFree statements) :
    AddsNoDollar registry evaluator statements := by
  induction statements using Statement.listInduction with
  | nil =>
      intro out value sheet after hout h
      rw [expandOnto] at h
      cases h
      exact hout
  | text content rest ih =>
      intro out value sheet after hout h
      rw [expandOnto] at h
      refine ih htexts.tail (out ++ content) value sheet after ?_ h
      rw [String.toList_append, List.mem_append, not_or]
      exact ⟨hout, htexts.content⟩
  | invocation name arguments rest harguments ih =>
      intro out value sheet after hout h
      rcases expandOnto_invocation_eq_ok h with
        ⟨c, entered, filled, bound, text, henter, hbind, hfinish, hrest⟩
      obtain ⟨hlookup, harity⟩ := enter_eq_ok henter
      have hfilled : filled.Ready registry [] :=
        ready_of_bindOnto (fun argument hmem => harguments argument hmem (htexts.argument hmem))
          harity (Instance.ready_of_lookup hclosed hlookup) hbind
      refine ih htexts.tail (out ++ text) value bound after ?_ hrest
      rw [String.toList_append, List.mem_append, not_or]
      exact ⟨hout, hfilled.not_mem_of_finish hfree hfinish⟩

/-!
# Two expansions

The two evaluators are asked for the same codes in the same scopes.
-/

theorem expandOnto_congr (hclosed : registry.Closed) (hfree : registry.DollarFree evaluator)
    (hagree : registry.Agree evaluator other) {statements : List Statement}
    (htexts : TextsDollarFree statements) (out : String) (sheet : Stylesheet) :
    expandOnto registry evaluator out sheet statements =
      expandOnto registry other out sheet statements := by
  induction statements using Statement.listInduction generalizing out sheet with
  | nil => rw [expandOnto, expandOnto]
  | text content rest ih =>
      rw [expandOnto, expandOnto]
      exact ih htexts.tail (out ++ content) sheet
  | invocation name arguments rest harguments ih =>
      apply expandOnto_invocation_congr
      · exact fun argument hmem => harguments argument hmem (htexts.argument hmem) ""
      · intro c entered filled bound hlookup harity hbind
        have hfilled : filled.Ready registry [] :=
          ready_of_bindOnto
            (fun argument hmem => addsNoDollar hclosed hfree (htexts.argument hmem))
            harity (Instance.ready_of_lookup hclosed hlookup) hbind
        exact hfilled.finish_congr hagree name
      · exact ih htexts.tail

end Expansion

/-!
# Compiling with either evaluator
-/

theorem Compiler.textsDollarFree_of_statements {c : Compiler} {text : String}
    {statements : List Statement} (htext : '$' ∉ text.toList)
    (h : c.statements text = .ok statements) :
    Expansion.TextsDollarFree statements := by
  obtain ⟨_, hparse⟩ := Compiler.statements_eq_ok.mp h
  have hwritten := Token.flatMap_source_scanOnto [] text.toList
  intro content hcontent hdollar
  have hmem := ((Markup.listSound_of_parse hparse).each _ hcontent).2 hdollar
  rw [Token.scan, hwritten] at hmem
  exact htext hmem

/-- Text without `$` cannot make a closed registry evaluate code that its templates do
not write: two evaluators that agree on the written codes compile it alike. -/
theorem compile_eq_of_agree {registry : Registry} {evaluator other : Evaluator}
    (hclosed : registry.Closed) (hagree : registry.Agree evaluator other)
    (hfree : registry.DollarFree evaluator) (tokenLimit nestingLimit : Nat) {text : String}
    (htext : '$' ∉ text.toList) :
    Compiler.compile ⟨registry, evaluator, tokenLimit, nestingLimit⟩ text =
      Compiler.compile ⟨registry, other, tokenLimit, nestingLimit⟩ text := by
  have hsame : Compiler.statements ⟨registry, other, tokenLimit, nestingLimit⟩ text =
      Compiler.statements ⟨registry, evaluator, tokenLimit, nestingLimit⟩ text := rfl
  rw [Compiler.compile, Compiler.compile, hsame]
  cases hstatements : Compiler.statements ⟨registry, evaluator, tokenLimit, nestingLimit⟩ text with
  | error cause => rfl
  | ok statements =>
      have htexts := Compiler.textsDollarFree_of_statements htext hstatements
      dsimp only
      rw [expand, expand, Expansion.expandOnto_congr hclosed hfree hagree htexts]

theorem sampleRegistry_closed : Markup.sampleRegistry.Closed := by
  apply Registry.closed_ofComponents
  intro c hc
  simp only [List.mem_cons, List.not_mem_nil, or_false] at hc
  rcases hc with rfl | rfl | rfl | rfl
  · have hhtml : "Hello ${who}!" = String.ofList (Template.source
        [.literal "Hello ", .argument "who", .literal "!"]) := by decide +kernel
    exact Component.closed_of_segments (by decide) hhtml (by decide +kernel)
  · have hhtml : "[${a}|${b}|${a}]" = String.ofList (Template.source
        [.literal "[", .argument "a", .literal "|", .argument "b", .literal "|",
          .argument "a", .literal "]"]) := by decide +kernel
    exact Component.closed_of_segments (by decide) hhtml (by decide +kernel)
  · have hhtml : "${eval:who.toUpperCase()}!" = String.ofList (Template.source
        [.code "who.toUpperCase()", .literal "!"]) := by decide +kernel
    exact Component.closed_of_segments (by decide) hhtml (by decide +kernel)
  · have hhtml : "<hr>" = String.ofList (Template.source [.literal "<hr>"]) := by
      decide +kernel
    exact Component.closed_of_segments (by decide) hhtml (by decide +kernel)

/-- Gives every code the value of `who`. -/
def echo : Evaluator :=
  fun _ scope => .ok ((scope.get? "who").getD "")

/-- Shows whether it is asked for a code with the digit one. -/
def alert : Evaluator :=
  fun code scope => if '1' ∈ code.toList then .ok "injected" else echo code scope

theorem compile_eq_of_agree_shout :
    Compiler.compile ⟨Markup.sampleRegistry, alert, 100, 2⟩
        "![shout][{eval:1}![pair][a\x7d][{eval:1}]!]!" =
      .ok ⟨"{eval:1}[a\x7d|{eval:1}|a\x7d]!", ""⟩ := by
  have hagree : Markup.sampleRegistry.Agree echo alert := by
    intro code scope hcode _
    rcases hcode.subset_html with ⟨name, c, hlookup, hsubset⟩
    have hdigit : '1' ∉ c.html.toList := by
      have hmem := Registry.mem_of_lookup_ofComponents hlookup
      simp only [List.mem_cons, List.not_mem_nil, or_false] at hmem
      rcases hmem with rfl | rfl | rfl | rfl <;> decide +kernel
    rw [alert, if_neg fun hmem => hdigit (hsubset hmem)]
  have hfree : Markup.sampleRegistry.DollarFree echo := by
    intro code scope value _ hscope hvalue
    cases hvalue
    cases hget : scope.get? "who" with
    | none => exact List.not_mem_nil
    | some value => exact hscope.not_mem_of_get? hget
  rw [← compile_eq_of_agree sampleRegistry_closed hagree hfree 100 2 (by decide +kernel)]
  decide +kernel

end ComponentMarkup
