/-!
# Blank characters

A character is blank when it has the Unicode property `White_Space`.  Trimming
removes blank characters from the ends of a text and leaves those inside it.
-/

namespace ComponentMarkup
namespace Text

/-- The twenty-five characters with the property `White_Space`. -/
def isBlank (c : Char) : Bool :=
  let code := c.toNat
  code == 0x20 || (0x09 ≤ code && code ≤ 0x0D) ||
    code == 0x85 || code == 0xA0 || code == 0x1680 ||
    (0x2000 ≤ code && code ≤ 0x200A) ||
    code == 0x2028 || code == 0x2029 || code == 0x202F || code == 0x205F ||
    code == 0x3000

def trimStart (cs : List Char) : List Char :=
  cs.dropWhile isBlank

def trimEnd (cs : List Char) : List Char :=
  (cs.reverse.dropWhile isBlank).reverse

def trim (cs : List Char) : List Char :=
  trimEnd (trimStart cs)

theorem trimStart_of_head_not_blank {c : Char} {cs : List Char}
    (hc : isBlank c = false) : trimStart (c :: cs) = c :: cs := by
  simp [trimStart, hc]

theorem trimEnd_of_last_not_blank {c : Char} {cs : List Char}
    (hc : isBlank c = false) : trimEnd (cs ++ [c]) = cs ++ [c] := by
  simp [trimEnd, hc]

end Text
end ComponentMarkup
