/-!
# Hexadecimal digits

The digits of base sixteen are the decimal digits and the letters from `a` to
`f`, which are read in either case.
-/

namespace ComponentMarkup
namespace Text
namespace Hexadecimal

def isDigit (c : Char) : Bool :=
  c.isDigit || ('a' ≤ c && c ≤ 'f') || ('A' ≤ c && c ≤ 'F')

def digitValue (c : Char) : Nat :=
  if c.isDigit then c.toNat - 48
  else if 'a' ≤ c then c.toNat - 87
  else c.toNat - 55

/-- The number that a row of hexadecimal digits denotes. -/
def value (digits : List Char) : Nat :=
  digits.foldl (fun value digit => 16 * value + digitValue digit) 0

/-- The lower-case digit of a number below sixteen. -/
def lowerDigit (n : Nat) : Char :=
  if n < 10 then Char.ofNat (48 + n) else Char.ofNat (87 + n)

/-- The upper-case digit of a number below sixteen. -/
def upperDigit (n : Nat) : Char :=
  if n < 10 then Char.ofNat (48 + n) else Char.ofNat (55 + n)

/-! ## Digits and their values -/

theorem digitValue_lowerDigit : ∀ n < 16, digitValue (lowerDigit n) = n := by
  decide

theorem digitValue_upperDigit : ∀ n < 16, digitValue (upperDigit n) = n := by
  decide

theorem isDigit_lowerDigit : ∀ n < 16, isDigit (lowerDigit n) = true := by
  decide

end Hexadecimal
end Text
end ComponentMarkup
