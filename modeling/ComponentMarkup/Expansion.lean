import ComponentMarkup.Markup.Statement
import ComponentMarkup.Stylesheet
import ComponentMarkup.Template

/-!
# Expansion of statements

Statements are expanded from the left and from the inside: the arguments of an
invocation become text before they are put into the template of its component.
What an argument or a value contains is never read as markup.  The stylesheet
notes every component that is met, also where the expansion fails.
-/

namespace ComponentMarkup

inductive ExpansionError where
  | wrongArity (component : String) (expected found : Nat) (usage : String)
  | unknownComponent (name : String)
  | evaluation (component : String) (cause : Script.EvalError)
deriving DecidableEq

def ExpansionError.message : ExpansionError → String
  | .wrongArity component expected found usage =>
      s!"Expected {expected} arguments but only found {found} in the '{component}' " ++
        s!"component.\n\nExample usage: {usage}"
  | .unknownComponent name => s!"Unknown component '{name}'"
  | .evaluation component cause =>
      s!"Error evaluating expression in the '{component}' component: {cause.message}"

namespace Expansion

open Markup (Statement)
open Template (Evaluator)

/-- The outcome of a step that notes components in the stylesheet. -/
abbrev Outcome (α : Type) := Except ExpansionError α × Stylesheet

/-- A template with its arguments in place and the scope of its codes. -/
structure Instance where
  html : String
  scope : Scope

def Instance.bind (i : Instance) (parameter value : String) : Instance :=
  ⟨Template.substitute parameter value i.html, i.scope.bind parameter value⟩

def Instance.finish (i : Instance) (evaluator : Evaluator) (name : String) :
    Except ExpansionError String :=
  match Template.fill evaluator i.scope i.html with
  | .ok text => .ok text
  | .error cause => .error (.evaluation name cause)

/-- Note an invocation in the stylesheet and find its component, which must have
as many parameters as there are arguments. -/
def enter (registry : Registry) (name : String) (found : Nat) (sheet : Stylesheet) :
    Outcome Component :=
  match sheet.include? registry name with
  | none => (.error (.unknownComponent name), sheet)
  | some (_, sheet) =>
      match registry.lookup name with
      | none => (.error (.unknownComponent name), sheet)
      | some component =>
          if found = component.arity then (.ok component, sheet)
          else
            (.error (.wrongArity name component.arity found component.usage), sheet)

mutual

/-- Expand statements behind the text already written. -/
def expandOnto (registry : Registry) (evaluator : Evaluator) (out : String)
    (sheet : Stylesheet) : List Statement → Outcome String
  | [] => (.ok out, sheet)
  | .text content :: rest => expandOnto registry evaluator (out ++ content) sheet rest
  | .invocation name arguments :: rest =>
      match enter registry name arguments.length sheet with
      | (.error cause, sheet) => (.error cause, sheet)
      | (.ok component, sheet) =>
          match bindOnto registry evaluator ⟨component.html, Scope.empty⟩ sheet
              component.parameters arguments with
          | (.error cause, sheet) => (.error cause, sheet)
          | (.ok filled, sheet) =>
              match filled.finish evaluator name with
              | .error cause => (.error cause, sheet)
              | .ok text => expandOnto registry evaluator (out ++ text) sheet rest

/-- Expand arguments one after another and put each into a template. -/
def bindOnto (registry : Registry) (evaluator : Evaluator) (filled : Instance)
    (sheet : Stylesheet) (parameters : List String) :
    List (List Statement) → Outcome Instance
  | [] => (.ok filled, sheet)
  | argument :: rest =>
      match parameters with
      | [] => (.ok filled, sheet)
      | parameter :: others =>
          match expandOnto registry evaluator "" sheet argument with
          | (.error cause, sheet) => (.error cause, sheet)
          | (.ok value, sheet) =>
              bindOnto registry evaluator (filled.bind parameter value) sheet others rest

end

end Expansion

/-- The text of some statements, with the components that they use added to a
stylesheet. -/
def expand (registry : Registry) (evaluator : Template.Evaluator)
    (statements : List Markup.Statement) (sheet : Stylesheet) :
    Except ExpansionError String × Stylesheet :=
  Expansion.expandOnto registry evaluator "" sheet statements

end ComponentMarkup
