import ComponentMarkup.Proofs.Compiler.Documents

/-!
# How the expansion of a text fails

An expansion that fails reports an invocation of its statements.  The statements of a text
only invoke components that are known, so what is reported of a text is a wrong number of
arguments or a code without a value.
-/

namespace ComponentMarkup

open Markup (Statement)
open Template (Evaluator)

namespace Expansion

variable {registry : Registry} {evaluator : Evaluator}

/-!
# Errors of an expansion
-/

/-- What an error says about the statements whose expansion fails. -/
inductive Reports (registry : Registry) (statements : List Statement) :
    ExpansionError → Prop where
  | unknownComponent (name : String) (arguments : List (List Statement))
      (invoked : .invocation name arguments ∈ Statement.withinAll statements)
      (unknown : registry.lookup name = none) :
      Reports registry statements (.unknownComponent name)
  | wrongArity (name : String) (arguments : List (List Statement)) (c : Component)
      (invoked : .invocation name arguments ∈ Statement.withinAll statements)
      (known : registry.lookup name = some c) (differs : arguments.length ≠ c.arity) :
      Reports registry statements (.wrongArity name c.arity arguments.length c.usage)
  | evaluation (name : String) (arguments : List (List Statement)) (cause : Script.EvalError)
      (invoked : .invocation name arguments ∈ Statement.withinAll statements) :
      Reports registry statements (.evaluation name cause)

theorem Reports.subset {statements others : List Statement} {cause : ExpansionError}
    (h : Reports registry statements cause)
    (hsubset : Statement.withinAll statements ⊆ Statement.withinAll others) :
    Reports registry others cause := by
  cases h with
  | unknownComponent name arguments invoked unknown =>
      exact Reports.unknownComponent name arguments (hsubset invoked) unknown
  | wrongArity name arguments c invoked known differs =>
      exact Reports.wrongArity name arguments c (hsubset invoked) known differs
  | evaluation name arguments cause invoked =>
      exact Reports.evaluation name arguments cause (hsubset invoked)

theorem reports_component {name : String} {arguments : List (List Statement)}
    {statements : List Statement} {cause : ExpansionError}
    (hinvoked : .invocation name arguments ∈ Statement.withinAll statements)
    (h : component registry name arguments.length = .error cause) :
    Reports registry statements cause := by
  unfold component at h
  split at h
  · rename_i hunknown
    cases h
    exact Reports.unknownComponent name arguments hinvoked hunknown
  · rename_i c hknown
    split at h
    · cases h
    · rename_i hdiffers
      cases h
      exact Reports.wrongArity name arguments c hinvoked hknown hdiffers

theorem reports_finish {name : String} {arguments : List (List Statement)}
    {statements : List Statement} {filled : Instance} {cause : ExpansionError}
    (hinvoked : .invocation name arguments ∈ Statement.withinAll statements)
    (h : filled.finish evaluator name = .error cause) : Reports registry statements cause := by
  unfold Instance.finish at h
  split at h
  · cases h
  · rename_i found _
    cases h
    exact Reports.evaluation name arguments found hinvoked

/-- Arguments that fail do so because of one of them. -/
theorem exists_error_of_bindOnto {arguments : List (List Statement)} {cause : ExpansionError}
    {filled : Instance} {sheet : Stylesheet} {parameters : List String}
    (h : (bindOnto registry evaluator filled sheet parameters arguments).1 = .error cause) :
    ∃ argument ∈ arguments, ∃ sheet : Stylesheet,
      (expandOnto registry evaluator "" sheet argument).1 = .error cause := by
  induction arguments generalizing filled sheet parameters with
  | nil =>
      rw [bindOnto] at h
      cases h
  | cons argument rest ih =>
      cases parameters with
      | nil =>
          rw [bindOnto] at h
          cases h
      | cons parameter others =>
          rw [bindOnto_cons] at h
          dsimp only at h
          split at h
          · rename_i found hfound
            cases h
            exact ⟨argument, List.mem_cons_self, sheet, hfound⟩
          · rcases ih h with ⟨next, hnext, after, herror⟩
            exact ⟨next, List.mem_cons_of_mem argument hnext, after, herror⟩

theorem reports_expandOnto {statements : List Statement} {cause : ExpansionError}
    {out : String} {sheet : Stylesheet}
    (h : (expandOnto registry evaluator out sheet statements).1 = .error cause) :
    Reports registry statements cause := by
  induction statements using Statement.listInduction generalizing out sheet with
  | nil =>
      rw [expandOnto] at h
      cases h
  | text content rest ih =>
      rw [expandOnto] at h
      exact (ih h).subset (List.subset_append_right _ _)
  | invocation name arguments rest harguments ih =>
      have hself : Statement.invocation name arguments ∈
          Statement.withinAll (.invocation name arguments :: rest) := List.mem_cons_self
      rw [expandOnto_invocation_cons] at h
      split at h
      · rename_i found hcomponent
        cases h
        exact reports_component hself hcomponent
      · dsimp only at h
        split at h
        · rename_i found hbind
          cases h
          rcases exists_error_of_bindOnto hbind with ⟨argument, hargument, after, herror⟩
          apply (harguments argument hargument herror).subset
          intro s hs
          apply List.mem_append_left
          apply List.mem_cons_of_mem
          exact Statement.mem_withinArguments.mpr ⟨argument, hargument, hs⟩
        · split at h
          · rename_i found hfinish
            cases h
            exact reports_finish hself hfinish
          · exact (ih h).subset (List.subset_append_right _ _)

end Expansion

/-!
# Errors of a text
-/

namespace Compiler

variable {c : Compiler}

/-- Before a text has statements nothing fails because of an expansion. -/
theorem statements_ne_ofExpansion (c : Compiler) (text : String) (cause : ExpansionError) :
    c.statements text ≠ .error (.ofExpansion cause) := by
  intro h
  rcases Nat.lt_or_ge c.tokenLimit (Markup.Token.scan text.toList).length with hlt | hle
  · rw [statements_of_lt hlt] at h
    cases h
  · rw [statements_of_le hle] at h
    cases hparse : Markup.parse c.registry c.nestingLimit (Markup.Token.scan text.toList) with
    | error found =>
        rw [hparse] at h
        cases h
    | ok statements =>
        rw [hparse] at h
        cases h

theorem reports_compile {text : String} {cause : ExpansionError}
    (h : c.compile text = .error (.ofExpansion cause)) :
    ∃ statements, c.statements text = .ok statements ∧
      Expansion.Reports c.registry statements cause := by
  cases hstatements : c.statements text with
  | error found =>
      rw [compile, hstatements] at h
      cases h
      exact absurd hstatements (statements_ne_ofExpansion c text cause)
  | ok statements =>
      rw [compile_of_statements hstatements, documentOf] at h
      split at h
      · rename_i found hexpand
        cases h
        exact ⟨statements, rfl, Expansion.reports_expandOnto hexpand⟩
      · cases h

theorem contains_of_mem_withinAll {text name : String} {statements : List Statement}
    {arguments : List (List Statement)} (h : c.statements text = .ok statements)
    (hinvoked : .invocation name arguments ∈ Statement.withinAll statements) :
    c.registry.contains name = true := by
  have hsound := Markup.listSound_of_parse (statements_eq_ok.mp h).2
  exact (hsound.each _ hinvoked).2.1

/-- The expansion of a text never meets an unknown component.  Where it meets a wrong number
of arguments, it reports an invocation in the statements of the text, with the usage of its
component, the number of parameters and the different number of arguments. -/
theorem expansionError_of_compile (c : Compiler) (text : String) :
    (∀ name, c.compile text ≠ .error (.ofExpansion (.unknownComponent name))) ∧
      ∀ name expected found usage,
        c.compile text = .error (.ofExpansion (.wrongArity name expected found usage)) →
          ∃ statements arguments component, c.statements text = .ok statements ∧
            .invocation name arguments ∈ Statement.withinAll statements ∧
            c.registry.lookup name = some component ∧
            expected = component.parameters.length ∧ found = arguments.length ∧
            expected ≠ found ∧ usage = component.usage := by
  constructor
  · intro name h
    rcases reports_compile h with ⟨statements, hstatements, hreports⟩
    cases hreports with
    | unknownComponent _ arguments invoked unknown =>
        have hknown := contains_of_mem_withinAll hstatements invoked
        rw [Registry.contains, unknown] at hknown
        cases hknown
  · intro name expected found usage h
    rcases reports_compile h with ⟨statements, hstatements, hreports⟩
    cases hreports with
    | wrongArity _ arguments component invoked known differs =>
        exact ⟨statements, arguments, component, hstatements, invoked, known, rfl, rfl,
          differs.symm, rfl⟩

/-- Two components with an example of their use. -/
def exampleRegistry : Registry :=
  Registry.ofComponents [
    { name := "Pair", usage := "![pair][x][y]!", parameters := ["a", "b"], html := "${a}|${b}" },
    { name := "em", usage := "![em][x]!", parameters := ["content"], html := "<em>${content}</em>" }]

/-- The outer invocation is right and the inner one has an argument too few. -/
theorem expansionError_of_compile_inner :
    Compiler.compile ⟨exampleRegistry, Script.evaluator 8, 100, 2⟩ "![em][a ![PAIR][b]!]!" =
      .error (.ofExpansion (.wrongArity "pair" 2 1 "![pair][x][y]!")) ∧
    ∃ statements arguments component,
      Compiler.statements ⟨exampleRegistry, Script.evaluator 8, 100, 2⟩
          "![em][a ![PAIR][b]!]!" = .ok statements ∧
        .invocation "pair" arguments ∈ Statement.withinAll statements ∧
        exampleRegistry.lookup "pair" = some component ∧
        2 = component.parameters.length ∧ 1 = arguments.length ∧ 2 ≠ 1 ∧
        "![pair][x][y]!" = component.usage := by
  have hcompile : Compiler.compile ⟨exampleRegistry, Script.evaluator 8, 100, 2⟩
      "![em][a ![PAIR][b]!]!" =
        .error (.ofExpansion (.wrongArity "pair" 2 1 "![pair][x][y]!")) := by
    decide +kernel
  constructor
  · exact hcompile
  · exact (expansionError_of_compile _ _).2 _ _ _ _ hcompile

end Compiler
end ComponentMarkup
