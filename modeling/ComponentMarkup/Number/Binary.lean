/-!
# Binary numbers of 64 bits

A number of 64 bits is a sign and a code below `2 ^ 63`.  The codes in order name
zero, the positive numbers in order, infinity and the values that are not
numbers.  A code below `infinity` stands for `significand * 2 ^ exponent`, and
that product is exact: rounding happens only in `nearest`, which finds the code
of the number next to a fraction of naturals.
-/

namespace ComponentMarkup
namespace Binary

/-- How many numbers share an exponent: `2 ^ 52`. -/
def stride : Nat :=
  0x10000000000000

def infinity : Nat :=
  0x7FF0000000000000

/-- How many codes there are, the place of the sign: `2 ^ 63`. -/
def signBit : Nat :=
  0x8000000000000000

/-- How many natural numbers fit in 64 bits: `2 ^ 64`. -/
def wordCount : Nat :=
  0x10000000000000000

/-- The whole number of units in the number with a given code. -/
def significand (code : Nat) : Nat :=
  if code < stride then code else code % stride + stride

/-- The power of two that is the unit of the number with a given code. -/
def exponent (code : Nat) : Int :=
  if code < stride then -1074 else Int.ofNat (code / stride) - 1075

/-- The code with a given significand and exponent. -/
def compose (significand : Nat) (exponent : Int) : Nat :=
  (exponent + 1074).toNat * stride + significand

/-! ## Rounding a fraction -/

/-- Whether `2 ^ power` is at most `num / den`. -/
def powerAtMost (power : Int) (num den : Nat) : Bool :=
  den * Nat.pow 2 power.toNat ≤ num * Nat.pow 2 (-power).toNat

/-- The greatest power of two that is at most `num / den`, both positive. -/
def floorPower (num den : Nat) : Int :=
  let power := Int.ofNat num.log2 - Int.ofNat den.log2
  if powerAtMost power num den then power else power - 1

/-- The natural number next to `num / den`; a half goes to the even neighbour. -/
def roundHalfEven (num den : Nat) : Nat :=
  let quotient := num / den
  let twice := 2 * (num % den)
  if twice < den ∨ (twice = den ∧ quotient % 2 = 0) then quotient else quotient + 1

/-- The code of the number next to `num / den`; a half goes to the even
significand, and what lies beyond the greatest number goes to infinity. -/
def nearest (num den : Nat) : Nat :=
  if num = 0 then 0
  else
    let unit := max (-1074) (floorPower num den - 52)
    let rounded :=
      roundHalfEven (num * Nat.pow 2 (-unit).toNat) (den * Nat.pow 2 unit.toNat)
    min infinity (compose rounded unit)

/-! ## Floating point numbers by sign and code -/

def ofCode (negative : Bool) (code : Nat) : Float :=
  Float.ofBits (UInt64.ofNat (if negative then code + signBit else code))

/-- Whether the sign of a number is negative; zero has a sign too. -/
def isNegative (x : Float) : Bool :=
  signBit ≤ x.toBits.toNat

def code (x : Float) : Nat :=
  x.toBits.toNat % signBit

def ofNat (n : Nat) : Float :=
  ofCode false (nearest n 1)

def ofInt (i : Int) : Float :=
  ofCode (i < 0) (nearest i.natAbs 1)

def notANumber : Float :=
  ofCode false (infinity + stride / 2)

def positiveInfinity : Float :=
  ofCode false infinity

/-! ## Whole parts and remainders -/

/-- The part of a finite magnitude before the point. -/
def wholePart (code : Nat) : Nat :=
  significand code * Nat.pow 2 (exponent code).toNat / Nat.pow 2 (-exponent code).toNat

/-- Whether a finite magnitude has nothing after the point. -/
def isWhole (code : Nat) : Bool :=
  significand code * Nat.pow 2 (exponent code).toNat % Nat.pow 2 (-exponent code).toNat == 0

/-- What is left of `x` after as many `y` as fit into it, with the sign of `x`. -/
def remainder (x y : Float) : Float :=
  let dividend := code x
  let divisor := code y
  if infinity ≤ dividend ∨ infinity < divisor ∨ divisor = 0 then notANumber
  else if divisor = infinity then x
  else
    let unit := min (exponent dividend) (exponent divisor)
    let left :=
      significand dividend * Nat.pow 2 (exponent dividend - unit).toNat %
        (significand divisor * Nat.pow 2 (exponent divisor - unit).toNat)
    ofCode (isNegative x)
      (nearest (left * Nat.pow 2 unit.toNat) (Nat.pow 2 (-unit).toNat))

inductive Whole where
  | negativeInfinity
  | finite (value : Int)
  | positiveInfinity
deriving DecidableEq

/-- A number without the part after its point; what is not a number counts as
zero. -/
def truncate (x : Float) : Whole :=
  let magnitude := code x
  if infinity < magnitude then .finite 0
  else if magnitude = infinity then
    if isNegative x then .negativeInfinity else .positiveInfinity
  else if isNegative x then .finite (-Int.ofNat (wholePart magnitude))
  else .finite (Int.ofNat (wholePart magnitude))

/-- The whole number that a number is, if it is one. -/
def toInt? (x : Float) : Option Int :=
  let magnitude := code x
  if infinity ≤ magnitude then none
  else if isWhole magnitude then
    if isNegative x then some (-Int.ofNat (wholePart magnitude))
    else some (Int.ofNat (wholePart magnitude))
  else none

/-! ## Codes and their parts -/

theorem compose_significand_exponent (code : Nat) :
    compose (significand code) (exponent code) = code := by
  unfold compose significand exponent stride
  by_cases h : code < 0x10000000000000
  · rw [if_pos h, if_pos h]
    exact Nat.zero_add code
  · have hdiv : 1 ≤ code / 0x10000000000000 :=
      (Nat.le_div_iff_mul_le (by decide)).2 (by omega)
    have hsplit := Nat.div_add_mod code 0x10000000000000
    simp only [if_neg h]
    have hpower :
        (Int.ofNat (code / 0x10000000000000) - 1075 + 1074).toNat =
          code / 0x10000000000000 - 1 := by
      simp only [Int.ofNat_eq_natCast]
      omega
    rw [hpower, Nat.sub_mul]
    omega

end Binary
end ComponentMarkup
