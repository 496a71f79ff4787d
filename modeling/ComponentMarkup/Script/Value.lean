import ComponentMarkup.Number.Layout
import ComponentMarkup.Number.Numeral
import ComponentMarkup.Text.Blank
import ComponentMarkup.Text.Hexadecimal

/-!
# Values of expressions

An expression evaluates to a primitive value: nothing of two kinds, a truth
value, a binary number or a text.  Values are converted into each other where an
operation needs another kind.
-/

namespace ComponentMarkup
namespace Script

inductive Value where
  | undefined
  | null
  | bool (value : Bool)
  | number (value : Float)
  | string (value : String)
deriving DecidableEq

/-! ## Texts as numbers -/

/-- The layout of numbers in results: digits are written out for magnitudes from
`10 ^ -6` to below `10 ^ 21`, and exponents are signed. -/
def numberLayout : Binary.Layout where
  positional e := -7 < e && e < 21
  keepsPoint := false
  marksPlus := true
  signsZero := false
  notANumber := "NaN"
  infinity := "Infinity"
  tie := .upper

/-- The number that some hexadecimal digits denote, if there are any and it is
below `2 ^ 64`. -/
def hexValue? (digits : List Char) : Option Float :=
  if digits.isEmpty || !digits.all Text.Hexadecimal.isDigit then none
  else if Text.Hexadecimal.value digits < Binary.wordCount then
    some (Binary.ofNat (Text.Hexadecimal.value digits))
  else none

def withSign (negative : Bool) (x : Float) : Float :=
  if negative then -x else x

/-- The characters behind a mark `0x` or `0X`. -/
def afterHexMark? : List Char → Option (List Char)
  | '0' :: 'x' :: digits => some digits
  | '0' :: 'X' :: digits => some digits
  | _ => none

/-- The number that a text denotes from end to end: nothing at all is zero, a
hexadecimal number has no sign, and blanks around the number do not count. -/
def numberOfText (s : String) : Float :=
  match Text.trim s.toList with
  | [] => Binary.ofNat 0
  | cs =>
      match afterHexMark? cs with
      | some digits => (hexValue? digits).getD Binary.notANumber
      | none =>
          let (negative, unsigned) := Numeral.scanSign cs
          if unsigned = "Infinity".toList then withSign negative Binary.positiveInfinity
          else
            match Numeral.read? unsigned with
            | some n => withSign negative n.value
            | none => Binary.notANumber

/-- The number that the longest numeral at the front of a text denotes. -/
def numberOfFront (s : String) : Float :=
  let (negative, unsigned) := Numeral.scanSign (Text.trimStart s.toList)
  if "Infinity".toList.isPrefixOf unsigned then withSign negative Binary.positiveInfinity
  else
    match Numeral.scan unsigned with
    | some (n, _) => withSign negative n.value
    | none => Binary.notANumber

/-- Read digits of a base as far as they go, each time multiplying and rounding. -/
def accumulateDigits (base : Float) (digits : List Char) : Float :=
  digits.foldl
    (fun value digit => value * base + Binary.ofNat (Text.Hexadecimal.digitValue digit))
    (Binary.ofNat 0)

/-- The number that the longest row of digits at the front of a text denotes, in
base sixteen behind a mark and in base ten otherwise. -/
def integerOfFront (s : String) : Float :=
  let (negative, unsigned) := Numeral.scanSign (Text.trimStart s.toList)
  let (base, digits) :=
    match afterHexMark? unsigned with
    | some rest => (16, rest.takeWhile Text.Hexadecimal.isDigit)
    | none => (10, unsigned.takeWhile Char.isDigit)
  if digits.isEmpty then Binary.notANumber
  else withSign negative (accumulateDigits (Binary.ofNat base) digits)

namespace Value

/-! ## Conversions -/

/-- Whether a value is one of the two kinds of nothing. -/
def isNullish : Value → Bool
  | .undefined => true
  | .null => true
  | _ => false

def asString? : Value → Option String
  | .string value => some value
  | _ => none

def toBool : Value → Bool
  | .undefined => false
  | .null => false
  | .bool value => value
  | .number value => Binary.code value != 0 && Binary.code value ≤ Binary.infinity
  | .string value => !value.isEmpty

def toNumber : Value → Float
  | .undefined => Binary.notANumber
  | .null => Binary.ofNat 0
  | .bool value => if value then Binary.ofNat 1 else Binary.ofNat 0
  | .number value => value
  | .string value => numberOfText value

def toText : Value → String
  | .undefined => "undefined"
  | .null => "null"
  | .bool value => if value then "true" else "false"
  | .number value => numberLayout.render value
  | .string value => value

def typeName : Value → String
  | .undefined => "undefined"
  | .null => "object"
  | .bool _ => "boolean"
  | .number _ => "number"
  | .string _ => "string"

/-! ## Comparisons -/

/-- Equality without conversion.  Numbers are compared as numbers. -/
def strictEquals : Value → Value → Bool
  | .undefined, .undefined => true
  | .null, .null => true
  | .bool a, .bool b => a == b
  | .number a, .number b => a == b
  | .string a, .string b => a == b
  | _, _ => false

/-- Equality after conversion: the two kinds of nothing equal each other and
nothing else, and values of different kinds are compared as numbers. -/
def looseEquals (a b : Value) : Bool :=
  if a.isNullish || b.isNullish then a.isNullish && b.isNullish
  else
    match a, b with
    | .string a, .string b => a == b
    | .bool a, .bool b => a == b
    | a, b => a.toNumber == b.toNumber

/-- Whether one value comes before another: texts by code points, all else by
number. -/
def lessThan : Value → Value → Bool
  | .string a, .string b => a < b
  | a, b => a.toNumber < b.toNumber

/-- Whether one value comes before another or at the same place. -/
def atMost : Value → Value → Bool
  | .string a, .string b => !decide (b < a)
  | a, b => a.toNumber ≤ b.toNumber

end Value
end Script
end ComponentMarkup
