import ComponentMarkup.Cursor
import ComponentMarkup.Markup.Token
import ComponentMarkup.Markup.Statement
import ComponentMarkup.Registry.Basic

/-!
# From tokens to statements

The tokens are read once from left to right.  The state between two tokens has
the statements of the innermost list read so far and the invocations that are
still open around it.  An opening sequence is followed by the component's name,
which ends at the next control sequence and must then be known.  Outside of all
invocations a separator or a closing sequence is literal text.
-/

namespace ComponentMarkup
namespace Markup

inductive ParseError where
  | invalidName (name : String)
  | unknownComponent (name : String)
  | unexpectedToken (component : String) (found : Token)
  | unexpectedEnd (component : String) (shortage : Shortage)
  | nestingTooDeep (limit : Nat)
deriving DecidableEq

def ParseError.message : ParseError → String
  | .invalidName name =>
      s!"Parse Error: Component name must be made of word characters: '{name}'"
  | .unknownComponent name => s!"Parse Error: Unknown component '{name}'"
  | .unexpectedToken component found =>
      s!"Parse Error: Expected '][' or ']!' after component '{component}', found '{found.text}'"
  | .unexpectedEnd component _ =>
      s!"Parse Error: Expected more text after component '{component}'"
  | .nestingTooDeep limit =>
      s!"Parse Error: Components nested deeper than {limit} levels"

/-- The deepest nesting of invocations, unless another is set. -/
def defaultNestingLimit : Nat :=
  256

/-- Whether a character may stand in a component's name. -/
def isWordChar (c : Char) : Bool :=
  c.isAlphanum || c == '_'

def isComponentName (name : String) : Bool :=
  !name.isEmpty && name.toList.all isWordChar

structure OpenInvocation where
  name : String
  /-- The arguments that are complete, last first. -/
  arguments : List (List Statement)
  /-- The statements before the invocation in its own list, last first. -/
  before : List Statement

/-- What has been read of the markup before some place. -/
structure ParseState where
  /-- The statements of the innermost list, last first. -/
  current : List Statement
  /-- The open invocations, innermost first. -/
  enclosing : List OpenInvocation
  /-- The characters of a name that is being read, last first. -/
  naming : Option (List Char)

namespace ParseState

def start : ParseState :=
  ⟨[], [], none⟩

/-- Extend a list of statements, last first, by a character. -/
def pushChar (c : Char) : List Statement → List Statement
  | .text content :: rest => .text (content.push c) :: rest
  | statements => .text (String.singleton c) :: statements

/-- The name that ends here, if it is well-formed and known and its invocation
may be opened. -/
def resolveName (registry : Registry) (limit : Nat) (enclosing : List OpenInvocation)
    (letters : List Char) : Except ParseError String :=
  let name := Text.lowercase (String.ofList letters.reverse)
  if !isComponentName name then .error (.invalidName name)
  else if !registry.contains name then .error (.unknownComponent name)
  else if limit ≤ enclosing.length then .error (.nestingTooDeep limit)
  else .ok name

def afterName (s : ParseState) (name : String) : Token → Except ParseError ParseState
  | .separator => .ok ⟨[], ⟨name, [], s.current⟩ :: s.enclosing, none⟩
  | .closing => .ok ⟨.invocation name [] :: s.current, s.enclosing, none⟩
  | found => .error (.unexpectedToken name found)

def inStatements (s : ParseState) : Token → ParseState
  | .char c => { s with current := pushChar c s.current }
  | .opening => { s with naming := some [] }
  | .separator =>
      match s.enclosing with
      | [] => { s with current := .text Token.separator.text :: s.current }
      | innermost :: outer =>
          { s with
            current := []
            enclosing :=
              { innermost with
                arguments := s.current.reverse :: innermost.arguments } :: outer }
  | .closing =>
      match s.enclosing with
      | [] => { s with current := .text Token.closing.text :: s.current }
      | innermost :: outer =>
          let arguments := (s.current.reverse :: innermost.arguments).reverse
          { s with
            current := .invocation innermost.name arguments :: innermost.before
            enclosing := outer }

def step (registry : Registry) (limit : Nat) (s : ParseState) (t : Token) :
    Except ParseError ParseState :=
  match s.naming, t with
  | none, t => .ok (s.inStatements t)
  | some letters, .char c => .ok { s with naming := some (c :: letters) }
  | some letters, t => do
      let name ← resolveName registry limit s.enclosing letters
      s.afterName name t

/-- The statements that are complete at the end of the tokens. -/
def finish (registry : Registry) (limit : Nat) (s : ParseState) :
    Except ParseError (List Statement) :=
  match s.naming, s.enclosing with
  | some letters, enclosing => do
      let name ← resolveName registry limit enclosing letters
      .error (.unexpectedEnd name ⟨1, 0⟩)
  | none, innermost :: _ => .error (.unexpectedEnd innermost.name ⟨1, 0⟩)
  | none, [] => .ok s.current.reverse

end ParseState

/-- The statements of a row of tokens, with invocations nested at most `limit`
deep. -/
def parse (registry : Registry) (limit : Nat) (tokens : List Token) :
    Except ParseError (List Statement) := do
  let s ← tokens.foldlM (ParseState.step registry limit) ParseState.start
  s.finish registry limit

end Markup
end ComponentMarkup
