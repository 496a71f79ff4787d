import ComponentMarkup.Registry.Basic

/-!
# Stylesheets

A stylesheet collects the styles of the components that are used.  Each component
brings its style once, at its first use.
-/

namespace ComponentMarkup

structure Stylesheet where
  /-- The names of the components in the order of their first use. -/
  included : List String
  /-- The styles in the same order, one behind the other. -/
  css : String
deriving DecidableEq

namespace Stylesheet

def empty : Stylesheet :=
  ⟨[], ""⟩

def append (s : Stylesheet) (name style : String) : Stylesheet :=
  ⟨s.included ++ [name], s.css ++ style⟩

/-- Note the use of a component by its lower-case name: whether it is the first
use, with the new stylesheet, unless the component is unknown. -/
def include? (registry : Registry) (name : String) (s : Stylesheet) :
    Option (Bool × Stylesheet) :=
  if s.included.contains name then some (false, s)
  else (registry.lookup name).map fun component => (true, s.append name component.style)

end Stylesheet
end ComponentMarkup
