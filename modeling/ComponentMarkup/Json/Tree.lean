import ComponentMarkup.Json.Lexeme

/-!
# JSON syntax trees

The tree of a JSON text keeps what is written: the numerals, the members of an
object in order with repeated keys, and strings without content where escapes do
not form characters.  It is built in one pass over the lexemes, with the open
containers on a stack, so nesting has no limit here.
-/

namespace ComponentMarkup
namespace Json

inductive Tree where
  | null
  | bool (value : Bool)
  | number (numeral : Numeral)
  | string (content : Option String)
  | array (items : List Tree)
  | object (members : List (Option String × Tree))

namespace Tree

/-- A container whose end is still to come, with its parts so far, last first. -/
inductive Container where
  | array (items : List Tree)
  /-- An object whose member with the given key has no value yet. -/
  | object (members : List (Option String × Tree)) (key : Option String)

/-- The place between two lexemes, with the open containers, innermost first. -/
inductive State where
  /-- A value comes next. -/
  | beforeValue (containers : List Container)
  /-- The first item of an array or its end comes next. -/
  | beforeFirstItem (containers : List Container)
  /-- The first key of an object or its end comes next. -/
  | beforeFirstKey (containers : List Container)
  /-- A further key of an object comes next. -/
  | beforeKey (members : List (Option String × Tree)) (containers : List Container)
  /-- The colon behind a key comes next. -/
  | beforeColon (members : List (Option String × Tree)) (key : Option String)
      (containers : List Container)
  /-- A value has ended. -/
  | afterValue (tree : Tree) (containers : List Container)

def State.beginValue (containers : List Container) : Lexeme → Option State
  | .null => some (.afterValue .null containers)
  | .bool value => some (.afterValue (.bool value) containers)
  | .number numeral => some (.afterValue (.number numeral) containers)
  | .string content => some (.afterValue (.string content) containers)
  | .arrayOpen => some (.beforeFirstItem containers)
  | .objectOpen => some (.beforeFirstKey containers)
  | _ => none

def State.continueAfter (tree : Tree) : List Container → Lexeme → Option State
  | .array items :: outer, .comma => some (.beforeValue (.array (tree :: items) :: outer))
  | .array items :: outer, .arrayClose =>
      some (.afterValue (.array (tree :: items).reverse) outer)
  | .object members key :: outer, .comma => some (.beforeKey ((key, tree) :: members) outer)
  | .object members key :: outer, .objectClose =>
      some (.afterValue (.object ((key, tree) :: members).reverse) outer)
  | _, _ => none

def State.step : State → Lexeme → Option State
  | .beforeValue containers, l => State.beginValue containers l
  | .beforeFirstItem containers, .arrayClose => some (.afterValue (.array []) containers)
  | .beforeFirstItem containers, l => State.beginValue (.array [] :: containers) l
  | .beforeFirstKey containers, .objectClose => some (.afterValue (.object []) containers)
  | .beforeFirstKey containers, .string key => some (.beforeColon [] key containers)
  | .beforeFirstKey _, _ => none
  | .beforeKey members containers, .string key => some (.beforeColon members key containers)
  | .beforeKey _ _, _ => none
  | .beforeColon members key containers, .colon =>
      some (.beforeValue (.object members key :: containers))
  | .beforeColon _ _ _, _ => none
  | .afterValue tree containers, l => State.continueAfter tree containers l

/-- The tree that is complete at the end of the lexemes. -/
def State.finish? : State → Option Tree
  | .afterValue tree [] => some tree
  | _ => none

def ofLexemes? (lexemes : List Lexeme) : Option Tree :=
  (lexemes.foldlM State.step (.beforeValue [])).bind State.finish?

def read? (s : String) : Option Tree :=
  (Lexeme.read s.toList).bind ofLexemes?

end Tree
end Json
end ComponentMarkup
