import ComponentMarkup.Number.Layout
import ComponentMarkup.Number.Numeral

/-!
# Numbers in JSON

A JSON numeral without point and exponent that fits in 64 bits is kept as a
whole number.  Any other numeral becomes a binary number in three steps: the
longest row of leading digits below `2 ^ 64` is the significand, every digit
that did not fit only counts for the scale, and the rounded significand is
multiplied or divided by a rounded power of ten.  The result can differ from the
nearest binary number in its last places, and a magnitude beyond the range is
refused.
-/

namespace ComponentMarkup
namespace Json

structure Numeral where
  negative : Bool
  /-- The digits before the point. -/
  whole : List Char
  /-- The digits after the point; none if there is no point. -/
  fraction : List Char
  /-- Whether the exponent is negative, and its digits. -/
  exponent : Option (Bool × List Char)
deriving DecidableEq

inductive Number where
  /-- A whole number from `0` to `2 ^ 64 - 1`. -/
  | natural (value : Nat)
  /-- The negative of a whole number from `1` to `2 ^ 63`. -/
  | negative (value : Nat)
  | binary (value : Float)
deriving DecidableEq

namespace Number

/-- The layout of binary numbers in JSON: digits are written out for magnitudes
from `10 ^ -5` to below `10 ^ 16`, whole numbers keep their point, exponents are
signed, and a tie between two numerals goes to the even one. -/
def layout : Binary.Layout where
  positional e := -5 ≤ e && e ≤ 15
  keepsPoint := true
  marksPlus := true
  signsZero := true
  notANumber := "null"
  infinity := "null"
  tie := .even

/-- Extend a significand by the digits that fit into 64 bits: the significand,
and the digits left over. -/
def absorb (significand : Nat) : List Char → Nat × List Char
  | [] => (significand, [])
  | digit :: rest =>
      let extended := 10 * significand + ComponentMarkup.Numeral.digitValue digit
      if extended < Binary.wordCount then absorb extended rest else (significand, digit :: rest)

def tenPower (power : Nat) : Float :=
  Binary.ofCode false (Binary.nearest (Nat.pow 10 power) 1)

/-- Divide by a power of ten, in steps of at most `10 ^ 308`. -/
def scaleDown (x : Float) (power : Nat) : Float :=
  if power ≤ 308 then x / tenPower power
  else if Binary.code x = 0 then x
  else scaleDown (x / tenPower 308) (power - 308)
termination_by power

/-- The magnitude of a significand scaled by a power of ten, if it is finite. -/
def scaled? (significand : Nat) (scale : Int) : Option Float :=
  let x := Binary.ofNat significand
  if scale < 0 then some (scaleDown x scale.natAbs)
  else if significand = 0 then some x
  else if 308 < scale then none
  else
    let product := x * tenPower scale.toNat
    if Binary.code product = Binary.infinity then none else some product

/-- The greatest exponent that takes part in the scale: `2 ^ 31 - 1`. -/
def exponentLimit : Nat :=
  0x7FFFFFFF

/-- The magnitude of a significand with a scale and an exponent.  An exponent
beyond the limit decides the result alone. -/
def magnitude? (significand : Nat) (scale : Int) : Option (Bool × List Char) → Option Float
  | none => scaled? significand scale
  | some (down, digits) =>
      let power := ComponentMarkup.Numeral.digitsValue digits
      if exponentLimit < power then
        if significand ≠ 0 ∧ down = false then none else some (Binary.ofNat 0)
      else
        scaled? significand (if down then scale - Int.ofNat power else scale + Int.ofNat power)

/-- The value of a numeral, unless its magnitude is out of range. -/
def ofNumeral? (n : Numeral) : Option Number :=
  let (significand, left) := absorb 0 n.whole
  if n.fraction.isEmpty && n.exponent.isNone && left.isEmpty then
    if n.negative = false then some (.natural significand)
    else if significand = 0 ∨ Binary.signBit < significand then
      some (.binary (-(Binary.ofNat significand)))
    else some (.negative significand)
  else
    let (significand, ignored) := absorb significand n.fraction
    let scale :=
      Int.ofNat left.length - Int.ofNat (n.fraction.length - ignored.length)
    (magnitude? significand scale n.exponent).map fun x =>
      .binary (if n.negative then -x else x)

def render : Number → String
  | .natural value => toString value
  | .negative value => "-" ++ toString value
  | .binary value => layout.render value

end Number
end Json
end ComponentMarkup
