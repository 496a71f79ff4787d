import ComponentMarkup.Json.Value
import ComponentMarkup.Registry.Basic

/-!
# Registries from JSON

A registry is stored as a JSON object with one entry for each component.  The key
in lower case is the component's name.  An entry is an object with the fields
below, of which only `html` is required, or an array of the fields in this order.
Each of the `arguments` is an array that starts with the name of a parameter.
Fields of other names are passed over whatever they hold.

All entries must have this shape before any of them is used.  They are used in
the order of their keys.
-/

namespace ComponentMarkup

inductive RegistryError where
  /-- The file cannot be read. -/
  | unreadable (path : String) (cause : String)
  /-- The text is not JSON of the right shape. -/
  | malformed
  /-- An argument does not start with the name of a parameter. -/
  | missingParameterName (component : String) (index : Nat)
deriving DecidableEq

def RegistryError.message : RegistryError → String
  | .unreadable path cause => s!"failed to read registry {path}: {cause}"
  | .malformed => "invalid registry JSON: not a table of components"
  | .missingParameterName component index =>
      s!"component '{component}' argument {index} has no parameter name"

structure StoredComponent where
  usage : String
  arguments : List (List Json.Value)
  html : String
  style : String
  script : Option String

namespace StoredComponent

/-- The fields of an entry, as far as they are given. -/
structure Fields where
  name : Option (Option String) := none
  usage : Option String := none
  arguments : Option (List (List Json.Value)) := none
  html : Option String := none
  style : Option String := none
  script : Option (Option String) := none

def text? : Json.Tree → Option String
  | .string content => content
  | _ => none

/-- The text that a tree means, or nothing if the tree is null. -/
def optionalText? : Json.Tree → Option (Option String)
  | .null => some none
  | tree => (text? tree).map some

/-- How many containers may be nested inside an argument: an argument stands
inside the table, an entry, the list of arguments and its own array. -/
def argumentNesting : Nat :=
  Json.Value.nestingLimit - 4

def argument? : Json.Tree → Option (List Json.Value)
  | .array parts => parts.mapM (Json.Value.ofTree? argumentNesting)
  | _ => none

def arguments? : Json.Tree → Option (List (List Json.Value))
  | .array items => items.mapM argument?
  | _ => none

def fill? {α : Type} (field : Option α) (value : Option α) : Option (Option α) :=
  match field with
  | some _ => none
  | none => value.map some

def Fields.take? (f : Fields) (member : Option String × Json.Tree) : Option Fields := do
  let tree := member.2
  match ← member.1 with
  | "name" => return { f with name := ← fill? f.name (optionalText? tree) }
  | "usage" => return { f with usage := ← fill? f.usage (text? tree) }
  | "arguments" => return { f with arguments := ← fill? f.arguments (arguments? tree) }
  | "html" => return { f with html := ← fill? f.html (text? tree) }
  | "style" => return { f with style := ← fill? f.style (text? tree) }
  | "script" => return { f with script := ← fill? f.script (optionalText? tree) }
  | _ => return f

def fieldNames : List String :=
  ["name", "usage", "arguments", "html", "style", "script"]

/-- An entry of which the template is given. -/
def ofFields? (f : Fields) : Option StoredComponent :=
  f.html.map fun html =>
    { usage := f.usage.getD ""
      arguments := f.arguments.getD []
      html := html
      style := f.style.getD ""
      script := f.script.getD none }

def ofTree? : Json.Tree → Option StoredComponent
  | .object members => (members.foldlM Fields.take? {}).bind ofFields?
  | .array items =>
      if fieldNames.length < items.length then none
      else
        ((fieldNames.map some).zip items |>.foldlM Fields.take? {}).bind ofFields?
  | _ => none

/-- The name of the parameter with which an argument starts. -/
def parameterName? : List Json.Value → Option String
  | .string name :: _ => if name.isEmpty then none else some name
  | _ => none

/-- The names of the parameters in order, the first of them with a given index. -/
def parameterNames (component : String) (index : Nat) :
    List (List Json.Value) → Except RegistryError (List String)
  | [] => .ok []
  | argument :: rest =>
      match parameterName? argument with
      | none => .error (.missingParameterName component index)
      | some name => do
          let names ← parameterNames component (index + 1) rest
          return name :: names

def toComponent (key : String) (stored : StoredComponent) :
    Except RegistryError Component := do
  let name := Text.lowercase key
  let parameters ← parameterNames name 0 stored.arguments
  return {
    name := name
    usage := stored.usage
    parameters := parameters
    html := stored.html
    style := stored.style
    script := stored.script }

end StoredComponent

namespace Registry

def entry? (member : Option String × Json.Tree) : Option (String × StoredComponent) := do
  let key ← member.1
  let stored ← StoredComponent.ofTree? member.2
  return (key, stored)

def entries? : Json.Tree → Option (Dictionary StoredComponent)
  | .object members => (members.mapM entry?).map Dictionary.empty.insertAll
  | _ => none

def addStored (r : Registry) (entry : String × StoredComponent) :
    Except RegistryError Registry := do
  let component ← entry.2.toComponent entry.1
  return r.add component

def ofJson (s : String) : Except RegistryError Registry :=
  match (Json.Tree.read? s).bind entries? with
  | none => .error .malformed
  | some stored => stored.entries.foldlM addStored empty

end Registry
end ComponentMarkup
