import ComponentMarkup.Number.Binary

/-!
# Decimal numerals

A decimal numeral is a row of digits, a point with a second row, or both, and
may end in an exponent.  It is read from the front of a text as far as it goes,
and its value is the binary number next to the exact decimal value.  Digits of
an exponent that has grown far beyond the range of binary numbers are passed
over.
-/

namespace ComponentMarkup

structure Numeral where
  /-- The digits before the point. -/
  whole : List Char
  /-- The digits after the point. -/
  fraction : List Char
  /-- The power of ten by which the numeral is scaled. -/
  exponent : Int
deriving DecidableEq

namespace Numeral

def digitValue (c : Char) : Nat :=
  c.toNat - 48

/-- The natural number that a row of decimal digits denotes. -/
def digitsValue (digits : List Char) : Nat :=
  digits.foldl (fun value digit => 10 * value + digitValue digit) 0

/-- The exponent that a row of decimal digits denotes.  A digit behind a value of
`2 ^ 16` or more does not count. -/
def exponentValue (digits : List Char) : Nat :=
  digits.foldl
    (fun value digit => if value < 0x10000 then 10 * value + digitValue digit else value) 0

/-- Read a sign, if there is one: whether it is a minus, and the rest. -/
def scanSign : List Char → Bool × List Char
  | '+' :: rest => (false, rest)
  | '-' :: rest => (true, rest)
  | rest => (false, rest)

/-- Read an exponent.  A mark that no digit follows is left unread. -/
def scanExponent (cs : List Char) : Int × List Char :=
  match cs with
  | [] => (0, [])
  | mark :: afterMark =>
      if mark = 'e' ∨ mark = 'E' then
        let (negative, afterSign) := scanSign afterMark
        let digits := afterSign.takeWhile Char.isDigit
        if digits.isEmpty then (0, cs)
        else
          let value := Int.ofNat (exponentValue digits)
          (if negative then -value else value, afterSign.dropWhile Char.isDigit)
      else (0, cs)

/-- Read a point and the digits after it.  A point without digits on either side
is left unread. -/
def scanFraction (whole cs : List Char) : List Char × List Char :=
  match cs with
  | '.' :: afterPoint =>
      let digits := afterPoint.takeWhile Char.isDigit
      if whole.isEmpty && digits.isEmpty then ([], cs)
      else (digits, afterPoint.dropWhile Char.isDigit)
  | _ => ([], cs)

/-- Read the longest numeral at the front of a text. -/
def scan (cs : List Char) : Option (Numeral × List Char) :=
  let whole := cs.takeWhile Char.isDigit
  let (fraction, afterFraction) := scanFraction whole (cs.dropWhile Char.isDigit)
  if whole.isEmpty && fraction.isEmpty then none
  else
    let (exponent, rest) := scanExponent afterFraction
    some (⟨whole, fraction, exponent⟩, rest)

/-- Read a text that is one numeral from end to end. -/
def read? (cs : List Char) : Option Numeral :=
  match scan cs with
  | some (n, []) => some n
  | _ => none

/-- The code of the binary number next to `coefficient * 10 ^ scale`.  Values far
outside the range of binary numbers are decided by their count of digits. -/
def nearestDecimal (coefficient : Nat) (digits : Nat) (scale : Int) : Nat :=
  let magnitude := Int.ofNat digits + scale
  if coefficient = 0 then 0
  else if 400 < magnitude then Binary.infinity
  else if magnitude < -400 then 0
  else Binary.nearest (coefficient * Nat.pow 10 scale.toNat) (Nat.pow 10 (-scale).toNat)

/-- The code of the binary number next to the value of a numeral. -/
def code (n : Numeral) : Nat :=
  let digits := (n.whole ++ n.fraction).dropWhile (· == '0')
  nearestDecimal (digitsValue digits) digits.length
    (n.exponent - Int.ofNat n.fraction.length)

/-- The binary number next to the value of a numeral. -/
def value (n : Numeral) : Float :=
  Binary.ofCode false n.code

end Numeral
end ComponentMarkup
