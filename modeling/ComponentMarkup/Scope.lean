import ComponentMarkup.Json.Quoted

/-!
# Bindings in view of an expression

A scope binds names to texts, one binding for each parameter of a component.  A
later binding of a name hides an earlier one.  A scope can be written out as
declarations for an evaluator that reads its bindings from the code.
-/

namespace ComponentMarkup

/-- Bindings of names to texts, in the order in which they were made. -/
structure Scope where
  bindings : List (String × String)
deriving DecidableEq

namespace Scope

def empty : Scope :=
  ⟨[]⟩

/-- Bind a name; the binding hides those made before. -/
def bind (s : Scope) (name value : String) : Scope :=
  ⟨s.bindings ++ [(name, value)]⟩

def get? (s : Scope) (name : String) : Option String :=
  s.bindings.reverse.lookup name

/-- The number of bindings, hidden ones included. -/
def size (s : Scope) : Nat :=
  s.bindings.length

def declaration (binding : String × String) : String :=
  "const " ++ binding.1 ++ " = " ++ Json.quoted binding.2 ++ ";\n"

/-- The declarations of all bindings, one on each line. -/
def prelude (s : Scope) : String :=
  s.bindings.foldl (fun out binding => out ++ declaration binding) ""

end Scope
end ComponentMarkup
