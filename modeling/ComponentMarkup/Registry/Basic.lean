import ComponentMarkup.Dictionary
import ComponentMarkup.Text.Case

/-!
# Components and their registry

A component is a template with named parameters, a style and an example of its
use.  A registry finds components by lower-case name.  It is filled once, and of
two components whose names differ only in case the later one remains.
-/

namespace ComponentMarkup

structure Component where
  /-- The name as it was given. -/
  name : String
  /-- An invocation that shows how to use the component. -/
  usage : String := ""
  /-- The names of the parameters in order. -/
  parameters : List String
  /-- The template with its placeholders. -/
  html : String
  /-- The style that the component brings along. -/
  style : String := ""
  /-- A script shipped with the component; compiling does not use it. -/
  script : Option String := none
deriving DecidableEq

def Component.arity (c : Component) : Nat :=
  c.parameters.length

structure Registry where
  components : Dictionary Component

namespace Registry

def empty : Registry :=
  ⟨Dictionary.empty⟩

def add (r : Registry) (c : Component) : Registry :=
  ⟨r.components.insert (Text.lowercase c.name) c⟩

/-- The registry of some components, added one after another. -/
def ofComponents (components : List Component) : Registry :=
  components.foldl add empty

def lookup (r : Registry) (name : String) : Option Component :=
  r.components.find? name

def contains (r : Registry) (name : String) : Bool :=
  (r.lookup name).isSome

def names (r : Registry) : List String :=
  r.components.keys

def size (r : Registry) : Nat :=
  r.components.size

theorem lookup_add (r : Registry) (c : Component) (name : String) :
    (r.add c).lookup name =
      if name = Text.lowercase c.name then some c else r.lookup name :=
  Dictionary.find?_insert r.components (Text.lowercase c.name) name c

end Registry
end ComponentMarkup
