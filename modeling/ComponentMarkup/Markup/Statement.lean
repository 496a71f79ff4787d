/-!
# Statements of component markup

Markup is a list of statements: literal texts and invocations of components.
Each argument of an invocation is a list of statements again.
-/

namespace ComponentMarkup
namespace Markup

inductive Statement where
  | text (content : String)
  /-- A component by its lower-case name, with its arguments. -/
  | invocation (name : String) (arguments : List (List Statement))

end Markup
end ComponentMarkup
