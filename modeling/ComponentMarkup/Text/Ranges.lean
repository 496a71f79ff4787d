/-!
# Ranges of characters

A property of characters is stored as the ascending list of the closed ranges
of code points that have it.
-/

namespace ComponentMarkup
namespace Text

/-- Whether an ascending list of closed ranges covers a code point. -/
def inRanges : List (Nat × Nat) → Nat → Bool
  | [], _ => false
  | (first, last) :: rest, code =>
      if code < first then false
      else if code ≤ last then true
      else inRanges rest code

/-- Whether the code point of a character is below 128. -/
def isAscii (c : Char) : Bool :=
  c.toNat < 128

end Text
end ComponentMarkup
