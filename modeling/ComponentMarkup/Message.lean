import ComponentMarkup.Compiler
import ComponentMarkup.Json.Value

/-!
# Messages in JSON bodies

A body that is a JSON object can carry markup in its member `message`.  The
markup is compiled and the document takes its place; every other member stays.
A body without such a member is left alone.
-/

namespace ComponentMarkup
namespace Message

def field : String :=
  "message"

structure Error where
  cause : CompileError
deriving DecidableEq

def Error.message (e : Error) : String :=
  "failed to compile message: " ++ e.cause.message

/-- The members of a body and its markup, if it has any. -/
def markup? (body : String) : Option (List (String × Json.Value) × String) :=
  match Json.Value.read? body with
  | some (.object members) =>
      match members.lookup field with
      | some (.string text) => if text.isEmpty then none else some (members, text)
      | _ => none
  | _ => none

/-- The body with its markup compiled, or nothing if it has no markup. -/
def compileBody (c : Compiler) (body : String) : Except Error (Option String) :=
  match markup? body with
  | none => .ok none
  | some (members, text) =>
      match c.compileToText text with
      | .error cause => .error ⟨cause⟩
      | .ok document =>
          .ok (some (Json.Value.object
            (Json.Value.setMember field (.string document) members)).render)

end Message
end ComponentMarkup
