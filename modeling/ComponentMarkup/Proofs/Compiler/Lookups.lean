import ComponentMarkup.Proofs.Compiler.Documents
import ComponentMarkup.Proofs.Markup.Lookups

/-!
# Only named components matter

The components that a text names behind its opening sequences are the only ones that
compiling it looks up.  Templates, arguments and values may contain any markup: the rest
of the registry does not matter.
-/

namespace ComponentMarkup

open Markup (Statement Token invokedNames)
open Template (Evaluator)

/-!
# Expanding with other components
-/

namespace Expansion

variable {registry other : Registry} {evaluator : Evaluator}

theorem component_of_agreesOn {names : List String} (h : registry.AgreesOn other names)
    {name : String} (hname : name ∈ names) (found : Nat) :
    component other name found = component registry name found := by
  rw [component, component, h name hname]

theorem note_of_agreesOn {names : List String} (h : registry.AgreesOn other names)
    {name : String} (hname : name ∈ names) (sheet : Stylesheet) :
    sheet.note other name = sheet.note registry name := by
  unfold Stylesheet.note Stylesheet.include?
  rw [h name hname]

theorem bindOnto_of_agreesOn {arguments : List (List Statement)}
    (harguments : ∀ argument ∈ arguments, ∀ sheet,
      expandOnto other evaluator "" sheet argument =
        expandOnto registry evaluator "" sheet argument)
    (filled : Instance) (sheet : Stylesheet) (parameters : List String) :
    bindOnto other evaluator filled sheet parameters arguments =
      bindOnto registry evaluator filled sheet parameters arguments := by
  induction arguments generalizing filled sheet parameters with
  | nil => rw [bindOnto, bindOnto]
  | cons argument rest ih =>
      cases parameters with
      | nil => rw [bindOnto, bindOnto]
      | cons parameter others =>
          have hrest := ih fun next hnext => harguments next (List.mem_cons_of_mem argument hnext)
          rw [bindOnto_cons, bindOnto_cons, harguments argument List.mem_cons_self]
          simp only [hrest]

/-- Statements are expanded alike with registries that agree on the components that they
invoke. -/
theorem expandOnto_of_agreesOn {statements : List Statement}
    (h : registry.AgreesOn other (Statement.invoked statements)) (out : String)
    (sheet : Stylesheet) :
    expandOnto other evaluator out sheet statements =
      expandOnto registry evaluator out sheet statements := by
  induction statements using Statement.listInduction generalizing out sheet with
  | nil => rw [expandOnto, expandOnto]
  | text content rest ih =>
      rw [expandOnto, expandOnto]
      exact ih h (out ++ content) sheet
  | invocation name arguments rest harguments ih =>
      rw [Statement.invoked_invocation_cons] at h
      have hinside : ∀ argument ∈ arguments,
          registry.AgreesOn other (Statement.invoked argument) := by
        intro argument hargument
        apply h.subset
        intro found hfound
        apply List.mem_cons_of_mem
        exact List.mem_append_left _ (Statement.invoked_subset hargument hfound)
      have hbehind : registry.AgreesOn other (Statement.invoked rest) := by
        apply h.subset
        intro found hfound
        apply List.mem_cons_of_mem
        exact List.mem_append_right _ hfound
      have hbind := bindOnto_of_agreesOn fun argument hargument =>
        harguments argument hargument (hinside argument hargument) ""
      rw [expandOnto_invocation_cons, expandOnto_invocation_cons,
        component_of_agreesOn h List.mem_cons_self, note_of_agreesOn h List.mem_cons_self]
      simp only [hbind, ih hbehind]

end Expansion

/-!
# Compiling with other components
-/

/-- The registry without the components that have none of some names. -/
def Registry.restrict (r : Registry) (names : List String) : Registry :=
  ⟨⟨r.components.entries.filter fun entry => names.contains entry.1⟩⟩

theorem Registry.lookup_restrict (r : Registry) (names : List String) (name : String) :
    (r.restrict names).lookup name = if name ∈ names then r.lookup name else none := by
  unfold lookup restrict Dictionary.find?
  dsimp only
  induction r.components.entries with
  | nil => simp
  | cons first rest ih =>
      rcases first with ⟨key, c⟩
      by_cases hkey : name = key
      · subst hkey
        by_cases hname : name ∈ names
        · simp [hname]
        · simpa [hname] using ih
      · rw [Dictionary.lookup_cons_of_ne hkey, ← ih, List.filter_cons]
        split
        · exact Dictionary.lookup_cons_of_ne hkey _ _
        · rfl

namespace Compiler

/-- The same compiler with other components. -/
def withRegistry (c : Compiler) (other : Registry) : Compiler :=
  { c with registry := other }

variable {c : Compiler} {other : Registry} {text : String}

theorem statements_withRegistry
    (h : c.registry.AgreesOn other (invokedNames (Token.scan text.toList))) :
    (c.withRegistry other).statements text = c.statements text := by
  have hparse : Markup.parse other c.nestingLimit (Token.scan text.toList) =
      Markup.parse c.registry c.nestingLimit (Token.scan text.toList) :=
    Markup.parse_of_agreesOn h
  rcases Nat.lt_or_ge c.tokenLimit (Token.scan text.toList).length with hlt | hle
  · rw [statements_of_lt hlt]
    exact statements_of_lt hlt
  · rw [statements_of_le hle, ← hparse]
    exact statements_of_le hle

theorem compile_withRegistry_of_agreesOn
    (h : c.registry.AgreesOn other (invokedNames (Token.scan text.toList))) :
    (c.withRegistry other).compile text = c.compile text := by
  unfold compile
  rw [statements_withRegistry h]
  cases hstatements : c.statements text with
  | error cause => rfl
  | ok statements =>
      rw [← invoked_of_statements hstatements] at h
      have hexpand : expand other c.evaluator statements Stylesheet.empty =
          expand c.registry c.evaluator statements Stylesheet.empty :=
        Expansion.expandOnto_of_agreesOn h "" Stylesheet.empty
      dsimp only [withRegistry]
      rw [hexpand]

/-- A text is compiled alike with registries that agree on the components that it names
behind its opening sequences.  So it does not matter either whether there are any others:
no template, argument or value brings up a component that the text does not name. -/
theorem compile_withRegistry (c : Compiler) (text : String) :
    (∀ other : Registry, c.registry.AgreesOn other (invokedNames (Token.scan text.toList)) →
      (c.withRegistry other).compile text = c.compile text) ∧
      (c.withRegistry (c.registry.restrict (invokedNames (Token.scan text.toList)))).compile
        text = c.compile text := by
  constructor
  · intro other h
    exact compile_withRegistry_of_agreesOn h
  · apply compile_withRegistry_of_agreesOn
    intro name hname
    rw [Registry.lookup_restrict, if_pos hname]

/-- A component that writes an invocation of another one. -/
def quotingRegistry : Registry :=
  Registry.ofComponents [
    { name := "quote", parameters := ["content"], html := "![em][${content}]!" }]

/-- The invocations that are written stay text, whether or not there is a component for
them. -/
theorem compile_withRegistry_quoted :
    quotingRegistry.AgreesOn
        (quotingRegistry.add { name := "em", parameters := [], html := "-", style := "em" })
        (invokedNames (Token.scan "![quote][![QUOTE][a]!]!".toList)) ∧
      Compiler.compile
          ⟨quotingRegistry.add { name := "em", parameters := [], html := "-", style := "em" },
            Script.evaluator 8, 100, 2⟩ "![quote][![QUOTE][a]!]!" =
        .ok ⟨"![em][![em][a]!]!", ""⟩ := by
  have hagree : quotingRegistry.AgreesOn
      (quotingRegistry.add { name := "em", parameters := [], html := "-", style := "em" })
      (invokedNames (Token.scan "![quote][![QUOTE][a]!]!".toList)) := by
    decide +kernel
  have hcompile : Compiler.compile ⟨quotingRegistry, Script.evaluator 8, 100, 2⟩
      "![quote][![QUOTE][a]!]!" = .ok ⟨"![em][![em][a]!]!", ""⟩ := by
    decide +kernel
  constructor
  · exact hagree
  · rw [← hcompile]
    exact (compile_withRegistry ⟨quotingRegistry, Script.evaluator 8, 100, 2⟩ _).1 _ hagree

end Compiler
end ComponentMarkup
