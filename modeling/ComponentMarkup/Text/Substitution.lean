/-!
# Searching and replacing

The occurrences of a pattern in a text are found from the left, and the search
goes on behind each occurrence.  The empty pattern occurs before every character
and at the end.
-/

namespace ComponentMarkup
namespace Text

/-- Replace every occurrence of a pattern that is not empty, behind what is
already written, last first.  The first `skip` characters belong to an
occurrence that was replaced before. -/
def replaceOnto (pattern replacement : List Char) (out : List Char) :
    Nat → List Char → List Char
  | _, [] => out.reverse
  | skip + 1, _ :: rest => replaceOnto pattern replacement out skip rest
  | 0, c :: rest =>
      if pattern.isPrefixOf (c :: rest) then
        replaceOnto pattern replacement (replacement.reverse ++ out) (pattern.length - 1) rest
      else replaceOnto pattern replacement (c :: out) 0 rest

def interleave (inserted : List Char) (cs : List Char) : List Char :=
  cs.flatMap (fun c => inserted ++ [c]) ++ inserted

def replaceAll (pattern replacement cs : List Char) : List Char :=
  if pattern.isEmpty then interleave replacement cs
  else replaceOnto pattern replacement [] 0 cs

/-- The text before the first occurrence of a pattern, last first, and the text
behind the occurrence. -/
def splitFirst? (pattern before : List Char) : List Char → Option (List Char × List Char)
  | [] => if pattern.isEmpty then some (before, []) else none
  | c :: rest =>
      if pattern.isPrefixOf (c :: rest) then
        some (before, (c :: rest).drop pattern.length)
      else splitFirst? pattern (c :: before) rest

def replaceFirst (pattern replacement cs : List Char) : List Char :=
  match splitFirst? pattern [] cs with
  | none => cs
  | some (before, after) => before.reverse ++ replacement ++ after

/-- The first place at which a pattern occurs, counted from `index` on. -/
def findFrom (pattern : List Char) (index : Nat) : List Char → Option Nat
  | [] => if pattern.isEmpty then some index else none
  | c :: rest =>
      if pattern.isPrefixOf (c :: rest) then some index
      else findFrom pattern (index + 1) rest

/-- The first place at or behind `start` at which a pattern occurs.  The empty
pattern occurs at the end if `start` is beyond it. -/
def indexOf? (pattern : List Char) (start : Nat) (cs : List Char) : Option Nat :=
  findFrom pattern (min start cs.length) (cs.drop start)

def contains (pattern cs : List Char) : Bool :=
  (findFrom pattern 0 cs).isSome

end Text
end ComponentMarkup
