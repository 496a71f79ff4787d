import ComponentMarkup.Json.Tree
import ComponentMarkup.Json.Quoted

/-!
# JSON values

A value is what a JSON text means: strings have content, numbers are in range,
the keys of an object are distinct, and containers are nested at most to a
limit.  Of a repeated key the last value counts, at the place of the first.  A
value is written without blanks.
-/

namespace ComponentMarkup
namespace Json

inductive Value where
  | null
  | bool (value : Bool)
  | number (value : Number)
  | string (value : String)
  | array (items : List Value)
  | object (members : List (String × Value))

namespace Value

/-- The members of an object with one of them set: in the place of a member with
the same key, else at the end. -/
def setMember (key : String) (value : Value) :
    List (String × Value) → List (String × Value)
  | [] => [(key, value)]
  | (other, old) :: rest =>
      if other = key then (key, value) :: rest
      else (other, old) :: setMember key value rest

/-- The deepest nesting of containers in a value that is read. -/
def nestingLimit : Nat :=
  127

/-- The value that a tree means, nested at most `room` containers deep. -/
def ofTree? : Nat → Tree → Option Value
  | _, .null => some .null
  | _, .bool value => some (.bool value)
  | _, .number numeral => (Number.ofNumeral? numeral).map .number
  | _, .string content => content.map .string
  | 0, .array _ => none
  | room + 1, .array items => (items.mapM (ofTree? room)).map .array
  | 0, .object _ => none
  | room + 1, .object members =>
      let read (soFar : List (String × Value)) (member : Option String × Tree) := do
        let key ← member.1
        let value ← ofTree? room member.2
        return setMember key value soFar
      (members.foldlM read []).map .object

def read? (s : String) : Option Value :=
  (Tree.read? s).bind (ofTree? nestingLimit)

mutual

/-- Write a value behind what is already written. -/
def renderOnto (out : String) : Value → String
  | .null => out ++ "null"
  | .bool true => out ++ "true"
  | .bool false => out ++ "false"
  | .number value => out ++ value.render
  | .string value => out ++ quoted value
  | .array items => renderItemsOnto (out ++ "[") items ++ "]"
  | .object members => renderMembersOnto (out ++ "\x7b") members ++ "\x7d"

/-- Write the items of an array, with commas between them. -/
def renderItemsOnto (out : String) : List Value → String
  | [] => out
  | [item] => renderOnto out item
  | item :: rest => renderItemsOnto (renderOnto out item ++ ",") rest

/-- Write the members of an object, with commas between them. -/
def renderMembersOnto (out : String) : List (String × Value) → String
  | [] => out
  | [(key, value)] => renderOnto (out ++ quoted key ++ ":") value
  | (key, value) :: rest =>
      renderMembersOnto (renderOnto (out ++ quoted key ++ ":") value ++ ",") rest

end

def render (value : Value) : String :=
  renderOnto "" value

end Value
end Json
end ComponentMarkup
