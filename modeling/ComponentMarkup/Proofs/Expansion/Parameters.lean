import ComponentMarkup.Compiler
import ComponentMarkup.Proofs.Expansion.Instances
import ComponentMarkup.Proofs.Script.Prelude

/-!
# Parameters named by placeholders and in codes

A template names a parameter by its placeholder or in a code.  The placeholder is replaced
by the value of the first parameter with the name, and from then on it is gone.  A code
looks its names up in the scope, where the last parameter with the name hides the others.
So the two ways come to the same for names that stand in the list of parameters once.
-/

namespace ComponentMarkup

/-!
# First and last bindings
-/

namespace Scope

theorem exists_lookup {bindings : List (String × String)} {name : String}
    (h : name ∈ bindings.map Prod.fst) : ∃ value, bindings.lookup name = some value := by
  obtain ⟨binding, hmem, rfl⟩ := List.mem_map.mp h
  exact Option.isSome_iff_exists.mp (List.lookup_isSome_iff.mpr ⟨binding, hmem, beq_self_eq_true _⟩)

theorem exists_get? {bindings : List (String × String)} {name : String}
    (h : name ∈ bindings.map Prod.fst) :
    ∃ value, (⟨bindings⟩ : Scope).get? name = some value := by
  apply exists_lookup
  rw [List.map_reverse, List.mem_reverse]
  exact h

theorem lookup_append_cons {before after : List (String × String)} {name : String}
    (h : name ∉ before.map Prod.fst) (value : String) :
    (before ++ (name, value) :: after).lookup name = some value := by
  refine List.lookup_eq_some_iff.mpr ⟨before, after, rfl, ?_⟩
  intro binding hbinding
  rw [bne_iff_ne]
  rintro rfl
  exact h (List.mem_map_of_mem hbinding)

theorem get?_append (before after : List (String × String)) (name : String) :
    (⟨before ++ after⟩ : Scope).get? name =
      ((⟨after⟩ : Scope).get? name).or ((⟨before⟩ : Scope).get? name) := by
  rw [get?, List.reverse_append, List.lookup_append]
  rfl

theorem get?_eq_none {bindings : List (String × String)} {name : String}
    (h : name ∉ bindings.map Prod.fst) : (⟨bindings⟩ : Scope).get? name = none := by
  rw [Option.eq_none_iff_forall_ne_some]
  intro value hvalue
  exact h (List.mem_map_of_mem (Script.mem_of_get? hvalue))

/-- The first binding of a name is its last one if there are no others. -/
theorem get?_eq_lookup {bindings : List (String × String)} {name value : String}
    (hcount : (bindings.map Prod.fst).count name = 1) (h : bindings.lookup name = some value) :
    (⟨bindings⟩ : Scope).get? name = some value := by
  obtain ⟨before, after, rfl, -⟩ := List.lookup_eq_some_iff.mp h
  rw [List.map_append, List.map_cons, List.count_append, List.count_cons_self] at hcount
  have hafter : name ∉ after.map Prod.fst := by
    rw [← List.count_eq_zero]
    omega
  rw [get?_append, Script.get?_cons, get?_eq_none hafter, if_pos rfl]
  rfl

/-- Bindings of some names to the empty text. -/
def blank (names : List String) : List (String × String) :=
  names.map fun name => (name, "")

theorem map_fst_blank (names : List String) : (blank names).map Prod.fst = names := by
  rw [blank, List.map_map]
  exact List.map_id names

theorem eq_empty_of_mem_blank {names : List String} {binding : String × String}
    (h : binding ∈ blank names) : binding.2 = "" := by
  obtain ⟨name, _, rfl⟩ := List.mem_map.mp h
  rfl

/-- A name that stands in a list more than once can be bound to two texts. -/
theorem exists_bindings_of_count_ne {names : List String} {name : String} (hmem : name ∈ names)
    (hcount : names.count name ≠ 1) :
    ∃ bindings : List (String × String), bindings.map Prod.fst = names ∧
      (∀ binding ∈ bindings, '$' ∉ binding.2.toList) ∧
      bindings.lookup name = some "first" ∧ (⟨bindings⟩ : Scope).get? name = some "" := by
  obtain ⟨before, after, rfl, hbefore⟩ := List.eq_append_cons_of_mem hmem
  rw [List.count_append, List.count_cons_self, List.count_eq_zero.mpr hbefore] at hcount
  have hafter : name ∈ after := by
    rw [← List.count_pos_iff]
    omega
  refine ⟨blank before ++ (name, "first") :: blank after, ?_, ?_, ?_, ?_⟩
  · rw [List.map_append, List.map_cons, map_fst_blank, map_fst_blank]
  · have hblank : ∀ names, ∀ binding ∈ blank names, '$' ∉ binding.2.toList := by
      intro names binding hbinding
      rw [eq_empty_of_mem_blank hbinding]
      decide
    simp only [List.forall_mem_append, List.forall_mem_cons]
    exact ⟨hblank before, by decide, hblank after⟩
  · apply lookup_append_cons
    rw [map_fst_blank]
    exact hbefore
  · rw [← map_fst_blank after] at hafter
    obtain ⟨last, hlast⟩ := exists_get? hafter
    have hempty : last = "" := eq_empty_of_mem_blank (Script.mem_of_get? hlast)
    rw [get?_append, Script.get?_cons, hlast, hempty]
    rfl

end Scope

/-!
# Names that are code
-/

namespace Script

theorem IsName.avoids {name : String} (h : IsName name) {c : Char}
    (hc : continuesWord c = false) : c ∉ name.toList := by
  obtain ⟨first, more, hname, _, hword, _⟩ := h.isWord
  intro hmem
  rw [hname] at hmem
  rw [hword c hmem] at hc
  cases hc

theorem IsName.ne_empty {name : String} (h : IsName name) : name ≠ "" := by
  obtain ⟨first, more, hname, _⟩ := h.isWord
  rintro rfl
  cases hname

/-- A name behind the mark of a code is not a single identifier. -/
theorem tokens_marked_ne (text name : String) :
    tokens ("eval:" ++ text) ≠ ([.identifier name], none) := by
  have hmark : IsName "eval" := by
    cbv
  intro h
  have hreadings := tokens_eq_iff_readings.mp h
  have hsplit : ("eval:" ++ text).toList = "eval".toList ++ ':' :: text.toList := by
    rw [String.toList_append]
    rfl
  rcases hcolon : readToken ':' text.toList with ⟨reading, size⟩
  have hstop : ∀ d ∈ (':' :: text.toList).head?, continuesWord d = false := by
    rintro _ ⟨⟩
    decide
  rw [hsplit, readings_name hmark hstop, readings_of_readToken rfl hcolon]
    at hreadings
  cases hreadings

end Script

/-!
# Templates that are one placeholder
-/

namespace Template

/-- A placeholder occurs in another one only if they are the same. -/
theorem eq_of_infix_placeholder {name other : String} (hopening : '\x7b' ∉ other.toList)
    (hclosing : '\x7d' ∉ other.toList) (h : placeholder name <:+: placeholder other) :
    name = other := by
  have hother : placeholder other = '$' :: '\x7b' :: (other.toList ++ ['\x7d']) := rfl
  have hname : placeholder name = '$' :: '\x7b' :: (name.toList ++ ['\x7d']) := rfl
  rw [hname, hother, List.infix_cons_iff, List.infix_cons_iff, List.cons_prefix_cons,
    List.cons_prefix_cons, List.cons_prefix_cons] at h
  rcases h with ⟨_, _, hfront⟩ | ⟨hdollar, _⟩ | hinside
  · rcases List.prefix_concat_iff.mp hfront with hwhole | hshorter
    · exact String.toList_inj.mp (List.append_cancel_right hwhole)
    · exact absurd (hshorter.subset (by simp)) hclosing
  · exact absurd hdollar (by decide)
  · have hmem : '\x7b' ∈ other.toList ++ ['\x7d'] := hinside.subset (by simp)
    simp only [List.mem_append, List.mem_singleton] at hmem
    rcases hmem with hmem | hbrace
    · exact absurd hmem hopening
    · exact absurd hbrace (by decide)

theorem substitute_placeholder_self (parameter value : String) :
    substitute parameter value (String.ofList (placeholder parameter)) = value := by
  have hpattern : placeholder parameter ≠ [] := by
    simp [placeholder]
  have hreplaced := Text.replaceAll_pattern hpattern value.toList []
  rw [List.append_nil, Text.replaceAll_nil hpattern, List.append_nil] at hreplaced
  rw [substitute, String.toList_ofList, hreplaced, String.ofList_toList]

theorem substitute_placeholder_of_ne {parameter other : String}
    (hopening : '\x7b' ∉ other.toList) (hclosing : '\x7d' ∉ other.toList)
    (hne : parameter ≠ other) (value : String) :
    substitute parameter value (String.ofList (placeholder other)) =
      String.ofList (placeholder other) := by
  have habsent : ¬ placeholder parameter <:+: placeholder other := fun hoccurs =>
    hne (eq_of_infix_placeholder hopening hclosing hoccurs)
  rw [substitute, String.toList_ofList, Text.replaceAll_of_not_infix habsent]

theorem substitute_of_not_mem {html : String} (h : '$' ∉ html.toList)
    (parameter value : String) : substitute parameter value html = html := by
  have habsent : ¬ placeholder parameter <:+: html.toList := fun hoccurs =>
    h (hoccurs.subset (by simp [placeholder]))
  rw [substitute, Text.replaceAll_of_not_infix habsent, String.ofList_toList]

theorem fill_of_not_mem {html : String} (h : '$' ∉ html.toList) (evaluator : Evaluator)
    (scope : Scope) : fill evaluator scope html = .ok html := by
  have hfill := fill_append_of_not_mem evaluator scope h []
  rw [List.append_nil, String.ofList_toList, fill_nil] at hfill
  rw [hfill]
  exact congrArg Except.ok (String.append_empty)

/-- A template that is one code is what the code is. -/
theorem fill_single_code {code : String} (hempty : code ≠ "") (hclosing : '\x7d' ∉ code.toList)
    (hline : '\n' ∉ code.toList) (evaluator : Evaluator) (scope : Scope) :
    fill evaluator scope (String.ofList (placeholder ("eval:" ++ code))) =
      evaluator code scope := by
  have hfront := codeAtFront?_code hempty hclosing hline []
  rw [List.append_nil, source_code] at hfront
  rw [fill_code evaluator scope hfront, fill_nil, String.ofList_toList]
  cases evaluator code scope with
  | error cause => rfl
  | ok value => exact congrArg Except.ok (String.append_empty)

end Template

namespace Expansion

open Markup (Statement)
open Template (Evaluator placeholder)

variable {registry : Registry} {evaluator : Evaluator}

theorem Instance.html_bindAll_of_not_mem {i : Instance} (h : '$' ∉ i.html.toList)
    (bindings : List (String × String)) : (i.bindAll bindings).html = i.html := by
  induction bindings generalizing i with
  | nil => rfl
  | cons binding rest ih =>
      have hbind : (i.bind binding.1 binding.2).html = i.html :=
        Template.substitute_of_not_mem h binding.1 binding.2
      rw [bindAll_cons, ih (hbind ▸ h), hbind]

/-- A placeholder becomes the value of the first parameter of its name. -/
theorem Instance.html_bindAll_placeholder {i : Instance} {name : String}
    {bindings : List (String × String)} (hopening : '\x7b' ∉ name.toList)
    (hclosing : '\x7d' ∉ name.toList)
    (hvalues : ∀ binding ∈ bindings, '$' ∉ binding.2.toList)
    (hhtml : i.html = String.ofList (placeholder name)) :
    (i.bindAll bindings).html =
      (bindings.lookup name).getD (String.ofList (placeholder name)) := by
  induction bindings generalizing i with
  | nil => exact hhtml
  | cons binding rest ih =>
      obtain ⟨hvalue, hvalues⟩ := List.forall_mem_cons.mp hvalues
      rw [bindAll_cons, Dictionary.lookup_cons_eq_if]
      by_cases hname : name = binding.1
      · have hbind : (i.bind binding.1 binding.2).html = binding.2 := by
          rw [bind, hhtml, hname]
          exact Template.substitute_placeholder_self binding.1 binding.2
        rw [← hbind] at hvalue
        rw [if_pos hname, html_bindAll_of_not_mem hvalue, hbind]
        rfl
      · have hbind : (i.bind binding.1 binding.2).html = String.ofList (placeholder name) := by
          rw [bind, hhtml]
          exact Template.substitute_placeholder_of_ne hopening hclosing (Ne.symm hname) binding.2
        rw [if_neg hname, ih hvalues hbind]

/-!
# Invocations of such templates
-/

/-- Arguments that are resolved to texts without `$`, one for each parameter. -/
structure Supplies (registry : Registry) (evaluator : Evaluator) (parameters : List String)
    (arguments : List (List Statement)) (values : List String) : Prop where
  arity : values.length = parameters.length
  resolved : List.Forall₂ (Resolves registry evaluator) arguments values
  dollarFree : ∀ value ∈ values, '$' ∉ value.toList

/-- Two components with the same parameters.  The template of the one is the placeholder of a
name and that of the other is the name as a code. -/
structure NamesTwice (registry : Registry) (parameters : List String)
    (p written coded : String) : Prop where
  written : ∃ c, registry.lookup written = some c ∧ c.parameters = parameters ∧
    c.html = "$\x7b" ++ p ++ "\x7d"
  coded : ∃ c, registry.lookup coded = some c ∧ c.parameters = parameters ∧
    c.html = "$\x7beval:" ++ p ++ "\x7d"

/-- Whether an invocation becomes a text, whatever styles there are already. -/
def ExpandsTo (registry : Registry) (evaluator : Evaluator) (name : String)
    (arguments : List (List Statement)) (text : String) : Prop :=
  ∀ sheet, (expand registry evaluator [.invocation name arguments] sheet).1 = .ok text

variable {parameters values : List String} {arguments : List (List Statement)}
  {p written coded : String}

theorem ExpandsTo.unique {name text other : String}
    (h : ExpandsTo registry evaluator name arguments text)
    (hother : ExpandsTo registry evaluator name arguments other) : text = other :=
  Except.ok.inj ((h Stylesheet.empty).symm.trans (hother Stylesheet.empty))

theorem ofList_placeholder (name : String) :
    String.ofList (placeholder name) = "$\x7b" ++ name ++ "\x7d" := by
  rw [← String.toList_inj]
  simp [placeholder]

theorem Supplies.html_filled {c : Component} (h : Supplies registry evaluator c.parameters
      arguments values) (name : String) (hopening : '\x7b' ∉ name.toList)
    (hclosing : '\x7d' ∉ name.toList) (hhtml : c.html = String.ofList (placeholder name)) :
    (filled c values).html =
      ((c.parameters.zip values).lookup name).getD (String.ofList (placeholder name)) :=
  Instance.html_bindAll_placeholder hopening hclosing
    (fun _ hbinding => h.dollarFree _ (List.of_mem_zip hbinding).2) hhtml

/-- A template that is the placeholder of a parameter gives the parameter's first value. -/
theorem Supplies.expandsTo_written {c : Component}
    (h : Supplies registry evaluator c.parameters arguments values) (hname : Script.IsName p)
    (hlookup : registry.lookup written = some c)
    (hhtml : c.html = String.ofList (placeholder p)) {value : String}
    (hvalue : (c.parameters.zip values).lookup p = some value) :
    ExpandsTo registry evaluator written arguments value := by
  have hfilled := h.html_filled p (hname.avoids (by decide)) (hname.avoids (by decide)) hhtml
  rw [hvalue, Option.getD_some] at hfilled
  have hdollar : '$' ∉ value.toList :=
    h.dollarFree value (List.of_mem_zip (Dictionary.mem_of_lookup hvalue)).2
  intro sheet
  rw [expand_invocation hlookup h.arity h.resolved, Instance.finish_eq_mapError, hfilled,
    Template.fill_of_not_mem hdollar]
  rfl

/-- A template that is one code gives what the evaluator makes of it. -/
theorem Supplies.expand_coded {c : Component}
    (h : Supplies registry evaluator c.parameters arguments values) (hname : Script.IsName p)
    (hlookup : registry.lookup coded = some c)
    (hhtml : c.html = String.ofList (placeholder ("eval:" ++ p)))
    (habsent : "eval:" ++ p ∉ c.parameters) (sheet : Stylesheet) :
    (expand registry evaluator [.invocation coded arguments] sheet).1 =
      (evaluator p ⟨c.parameters.zip values⟩).mapError (.evaluation coded) := by
  have hopening : '\x7b' ∉ p.toList := hname.avoids (by decide)
  have hclosing : '\x7d' ∉ p.toList := hname.avoids (by decide)
  have hfilled := h.html_filled ("eval:" ++ p) (by simp [hopening]) (by simp [hclosing]) hhtml
  have hunbound : (c.parameters.zip values).lookup ("eval:" ++ p) = none := by
    rw [List.lookup_eq_none_iff]
    intro binding hbinding
    rw [bne_iff_ne]
    intro hsame
    exact habsent (hsame ▸ (List.of_mem_zip hbinding).1)
  rw [hunbound, Option.getD_none] at hfilled
  rw [expand_invocation hlookup h.arity h.resolved, Instance.finish_eq_mapError, hfilled,
    scope_filled, Template.fill_single_code hname.ne_empty hclosing (hname.avoids (by decide))]

/-- Texts without `$` can be supplied as they are. -/
theorem supplies_bindings (registry : Registry) (evaluator : Evaluator)
    (bindings : List (String × String)) (h : ∀ binding ∈ bindings, '$' ∉ binding.2.toList) :
    Supplies registry evaluator (bindings.map Prod.fst)
      (bindings.map fun binding => [.text binding.2]) (bindings.map Prod.snd) := by
  refine ⟨by rw [List.length_map, List.length_map], ?_, List.forall_mem_map.mpr h⟩
  rw [List.forall₂_map_left_iff, List.forall₂_map_right_iff, List.forall₂_same]
  exact fun binding _ => resolves_text binding.2

/-! ## The built-in evaluator -/

variable {limit : Nat}

/-- The placeholder gives the first value of a name and the code gives the last one. -/
theorem NamesTwice.expandsTo (h : NamesTwice registry parameters p written coded)
    (hlimit : 0 < limit) (hname : Script.IsName p) (hp : p ∈ parameters)
    (hcode : "eval:" ++ p ∉ parameters)
    (hsupplies : Supplies registry (Script.evaluator limit) parameters arguments values) :
    ∃ first last, (parameters.zip values).lookup p = some first ∧
      (⟨parameters.zip values⟩ : Scope).get? p = some last ∧
      ExpandsTo registry (Script.evaluator limit) written arguments first ∧
      ExpandsTo registry (Script.evaluator limit) coded arguments last := by
  have hbound : p ∈ (parameters.zip values).map Prod.fst := by
    rw [List.map_fst_zip (Nat.le_of_eq hsupplies.arity.symm)]
    exact hp
  obtain ⟨first, hfirst⟩ := Scope.exists_lookup hbound
  obtain ⟨last, hlast⟩ := Scope.exists_get? hbound
  refine ⟨first, last, hfirst, hlast, ?_, ?_⟩
  · obtain ⟨c, hlookup, rfl, hhtml⟩ := h.written
    rw [← ofList_placeholder] at hhtml
    exact hsupplies.expandsTo_written hname hlookup hhtml hfirst
  · obtain ⟨c, hlookup, rfl, hhtml⟩ := h.coded
    have hmarked : c.html = String.ofList (placeholder ("eval:" ++ p)) := by
      rw [hhtml, ofList_placeholder, ← String.append_assoc]
      rfl
    intro sheet
    rw [hsupplies.expand_coded hname hlookup hmarked hcode, Script.evaluator,
      Script.evaluateCode_name hlimit hname hlast]
    rfl

/-- The placeholder of a parameter gives the value of the first parameter of its name, and
its name as a code gives that of the last one.  So the two come to the same for all
arguments without `$` exactly if there is only one parameter of the name. -/
theorem expandsTo_same_iff_count_eq_one (hlimit : 0 < limit)
    (hnames : ∀ q ∈ parameters, ∃ name, Script.tokens q = ([.identifier name], none))
    (hname : Script.IsName p) (hp : p ∈ parameters)
    (hcomponents : NamesTwice registry parameters p written coded) :
    (∀ arguments values,
      Supplies registry (Script.evaluator limit) parameters arguments values →
      ∃ first last, (parameters.zip values).lookup p = some first ∧
        (⟨parameters.zip values⟩ : Scope).get? p = some last ∧
        ExpandsTo registry (Script.evaluator limit) written arguments first ∧
        ExpandsTo registry (Script.evaluator limit) coded arguments last) ∧
    ((∀ arguments values,
        Supplies registry (Script.evaluator limit) parameters arguments values →
        ∃ text, ExpandsTo registry (Script.evaluator limit) written arguments text ∧
          ExpandsTo registry (Script.evaluator limit) coded arguments text) ↔
      parameters.count p = 1) := by
  have hcode : "eval:" ++ p ∉ parameters := by
    intro hmem
    obtain ⟨name, hmarked⟩ := hnames _ hmem
    exact Script.tokens_marked_ne p name hmarked
  refine ⟨fun _ _ => hcomponents.expandsTo hlimit hname hp hcode, ?_, ?_⟩
  · intro hsame
    by_contra hcount
    obtain ⟨bindings, rfl, hdollar, hfirst, hlast⟩ :=
      Scope.exists_bindings_of_count_ne hp hcount
    have hsupplies := supplies_bindings registry (Script.evaluator limit) bindings hdollar
    have hzip : (bindings.map Prod.fst).zip (bindings.map Prod.snd) = bindings :=
      (List.zip_of_prod rfl rfl).symm
    obtain ⟨first, last, hfirst', hlast', hwritten, hcoded⟩ :=
      hcomponents.expandsTo hlimit hname hp hcode hsupplies
    rw [hzip, hfirst] at hfirst'
    rw [hzip, hlast] at hlast'
    cases hfirst'
    cases hlast'
    obtain ⟨text, htext, htext'⟩ := hsame _ _ hsupplies
    have hequal := (hwritten.unique htext).trans (hcoded.unique htext').symm
    exact absurd hequal (by decide)
  · intro hcount arguments values hsupplies
    obtain ⟨first, last, hfirst, hlast, hwritten, hcoded⟩ :=
      hcomponents.expandsTo hlimit hname hp hcode hsupplies
    have honce : ((parameters.zip values).map Prod.fst).count p = 1 := by
      rw [List.map_fst_zip (Nat.le_of_eq hsupplies.arity.symm)]
      exact hcount
    rw [Scope.get?_eq_lookup honce hfirst] at hlast
    cases hlast
    exact ⟨first, hwritten, hcoded⟩

def writtenComponent (parameters : List String) (p : String) : Component :=
  { name := "written", parameters := parameters, html := "$\x7b" ++ p ++ "\x7d" }

def codedComponent (parameters : List String) (p : String) : Component :=
  { name := "coded", parameters := parameters, html := "$\x7beval:" ++ p ++ "\x7d" }

/-- The two ways to name a parameter. -/
def twiceRegistry (parameters : List String) (p : String) : Registry :=
  Registry.ofComponents [writtenComponent parameters p, codedComponent parameters p]

theorem namesTwice_twiceRegistry (parameters : List String) (p : String) :
    NamesTwice (twiceRegistry parameters p) parameters p "written" "coded" := by
  have hwritten : Text.lowercase (writtenComponent parameters p).name = "written" := by
    change Text.lowercase "written" = "written"
    decide +kernel
  have hcoded : Text.lowercase (codedComponent parameters p).name = "coded" := by
    change Text.lowercase "coded" = "coded"
    decide +kernel
  constructor
  · refine ⟨writtenComponent parameters p, ?_, rfl, rfl⟩
    simp [twiceRegistry, Registry.ofComponents, Registry.lookup_add, hwritten, hcoded]
  · refine ⟨codedComponent parameters p, ?_, rfl, rfl⟩
    simp [twiceRegistry, Registry.ofComponents, Registry.lookup_add, hcoded]

/-- A name may have a `$`, and other parameters may have blanks around theirs. -/
theorem expandsTo_same_iff_count_eq_one_blanks :
    Supplies (twiceRegistry ["a$", " b "] "a$") (Script.evaluator 8) ["a$", " b "]
        [[.text "1"], [.text "2"]] ["1", "2"] ∧
      ∃ text,
        ExpandsTo (twiceRegistry ["a$", " b "] "a$") (Script.evaluator 8) "written"
          [[.text "1"], [.text "2"]] text ∧
        ExpandsTo (twiceRegistry ["a$", " b "] "a$") (Script.evaluator 8) "coded"
          [[.text "1"], [.text "2"]] text := by
  have hsupplies : Supplies (twiceRegistry ["a$", " b "] "a$") (Script.evaluator 8)
      ["a$", " b "] [[.text "1"], [.text "2"]] ["1", "2"] :=
    supplies_bindings _ _ [("a$", "1"), (" b ", "2")] (by decide)
  have hname : Script.IsName "a$" := by
    cbv
  have hblank : Script.tokens " b " = ([.identifier "b"], none) := by
    cbv
  have hnames : ∀ q ∈ ["a$", " b "],
      ∃ name, Script.tokens q = ([.identifier name], none) := by
    simp only [List.forall_mem_cons]
    exact ⟨⟨_, hname⟩, ⟨_, hblank⟩, List.forall_mem_nil _⟩
  have hcomponents := namesTwice_twiceRegistry ["a$", " b "] "a$"
  have hlimit : 0 < 8 := by
    decide
  have hsame := (expandsTo_same_iff_count_eq_one hlimit hnames hname (by decide)
    hcomponents).2.mpr (by decide)
  exact ⟨hsupplies, hsame _ _ hsupplies⟩

/-- Of two parameters of one name the placeholder gives the first and the code the last.  A
name with a blank in front of it is bound as it is, but looked up without the blank. -/
theorem expand_written_ne_coded :
    (Script.IsName "a" ∧
        (expand (twiceRegistry ["a", "a"] "a") (Script.evaluator Script.defaultDepthLimit)
          [.invocation "written" [[.text "1"], [.text "2"]]] Stylesheet.empty).1 = .ok "1" ∧
        (expand (twiceRegistry ["a", "a"] "a") (Script.evaluator Script.defaultDepthLimit)
          [.invocation "coded" [[.text "1"], [.text "2"]]] Stylesheet.empty).1 = .ok "2") ∧
      Script.tokens " a" = ([.identifier "a"], none) ∧
        (expand (twiceRegistry [" a"] " a") (Script.evaluator Script.defaultDepthLimit)
          [.invocation "written" [[.text "1"]]] Stylesheet.empty).1 = .ok "1" ∧
        (expand (twiceRegistry [" a"] " a") (Script.evaluator Script.defaultDepthLimit)
          [.invocation "coded" [[.text "1"]]] Stylesheet.empty).1 =
            .error (.evaluation "coded" (.reference "a")) := by
  refine ⟨⟨?_, ?_, ?_⟩, ?_, ?_, ?_⟩
  · cbv
  · decide +kernel
  · cbv
  · cbv
  · decide +kernel
  · cbv

end Expansion
end ComponentMarkup
