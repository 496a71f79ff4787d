import ComponentMarkup.Scope
import ComponentMarkup.Script.Error
import ComponentMarkup.Text.Substitution

/-!
# Templates

A template is text with two kinds of placeholders: `$` and a parameter's name in
braces, which stands for an argument, and `$` and code in braces behind the mark
`eval:`, which stands for the value of the code.  Arguments are put in first, by
plain replacement.  Then the codes are found from the left: a code has at least
one character, stays on one line and ends before a closing brace, the first one
behind its first character.
-/

namespace ComponentMarkup
namespace Template

/-- The characters between which a parameter's name stands in its placeholder. -/
def placeholder (parameter : String) : List Char :=
  '$' :: '\x7b' :: parameter.toList ++ ['\x7d']

/-- Put an argument in the place of a parameter's placeholders. -/
def substitute (parameter value html : String) : String :=
  String.ofList (Text.replaceAll (placeholder parameter) value.toList html.toList)

/-- A piece of a template whose arguments are in place. -/
inductive Piece where
  | literal (text : String)
  | code (text : String)
deriving DecidableEq

def codeMark : List Char :=
  ['$', '\x7b', 'e', 'v', 'a', 'l', ':']

/-- Whether a character can stand inside a code behind its first character. -/
def continuesCode (c : Char) : Bool :=
  c != '\x7d' && c != '\n'

/-- The code behind its mark and the text behind its closing brace. -/
def splitCode? : List Char → Option (List Char × List Char)
  | [] => none
  | c :: rest =>
      if c = '\n' then none
      else
        match rest.dropWhile continuesCode with
        | '\x7d' :: after => some (c :: rest.takeWhile continuesCode, after)
        | _ => none

/-- The code at the front of a text with its mark, and the text behind it. -/
def codeAtFront? (cs : List Char) : Option (List Char × List Char) :=
  if codeMark.isPrefixOf cs then splitCode? (cs.drop codeMark.length) else none

theorem length_of_splitCode? {cs code after : List Char}
    (h : splitCode? cs = some (code, after)) : after.length < cs.length := by
  unfold splitCode? at h
  split at h
  · cases h
  · rename_i c rest
    split at h
    · cases h
    · have hle := (List.dropWhile_sublist continuesCode (l := rest)).length_le
      split at h
      · rename_i found hdrop
        simp only [Option.some.injEq, Prod.mk.injEq] at h
        rw [hdrop, List.length_cons] at hle
        rw [← h.2, List.length_cons]
        omega
      · cases h

theorem length_of_codeAtFront? {cs code after : List Char}
    (h : codeAtFront? cs = some (code, after)) : after.length < cs.length := by
  unfold codeAtFront? at h
  split at h
  · have := length_of_splitCode? h
    rw [List.length_drop] at this
    omega
  · cases h

/-- Add a literal piece, unless it is empty, in front of pieces that come last
first. -/
def pushLiteral (literal : List Char) (pieces : List Piece) : List Piece :=
  if literal.isEmpty then pieces
  else .literal (String.ofList literal.reverse) :: pieces

/-- Read the pieces of a text behind the pieces read so far and the literal
characters since then, both last first. -/
def piecesOnto (pieces : List Piece) (literal : List Char) (cs : List Char) : List Piece :=
  match cs with
  | [] => (pushLiteral literal pieces).reverse
  | c :: rest =>
      match _h : codeAtFront? (c :: rest) with
      | some (code, after) =>
          piecesOnto (.code (String.ofList code) :: pushLiteral literal pieces) [] after
      | none => piecesOnto pieces (c :: literal) rest
termination_by cs.length
decreasing_by
  · exact length_of_codeAtFront? _h
  · simp

def pieces (html : String) : List Piece :=
  piecesOnto [] [] html.toList

/-- Something that gives code a value in view of a scope. -/
abbrev Evaluator := String → Scope → Except Script.EvalError String

/-- Put the pieces together behind what is already written, with the value of
each code in its place. -/
def fillOnto (evaluator : Evaluator) (scope : Scope) (out : String) :
    List Piece → Except Script.EvalError String
  | [] => .ok out
  | .literal text :: rest => fillOnto evaluator scope (out ++ text) rest
  | .code code :: rest =>
      match evaluator code scope with
      | .ok value => fillOnto evaluator scope (out ++ value) rest
      | .error cause => .error cause

/-- The text of a template whose arguments are in place.  Where the mark of a code does
not occur there is nothing to read. -/
def fill (evaluator : Evaluator) (scope : Scope) (html : String) :
    Except Script.EvalError String :=
  if Text.contains codeMark html.toList then fillOnto evaluator scope "" (pieces html)
  else .ok html

end Template
end ComponentMarkup
