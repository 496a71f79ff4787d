import ComponentMarkup.Number.Shortest

/-!
# Layouts of numbers

The text of a number has the digits of its shortest numeral.  A layout decides
what is written around them: for which exponents the digits are written out
positionally, whether a whole number keeps its point, how the exponent and the
sign of zero are shown, and the words for the values without digits.
-/

namespace ComponentMarkup
namespace Binary

structure Layout where
  /-- Whether digits with this exponent of the first one are written out. -/
  positional : Int → Bool
  /-- Whether a whole number that is written out ends in `.0`. -/
  keepsPoint : Bool
  /-- Whether an exponent that is not negative has a plus sign. -/
  marksPlus : Bool
  /-- Whether negative zero has a minus sign. -/
  signsZero : Bool
  /-- The word for what is not a number. -/
  notANumber : String
  /-- The word for infinity. -/
  infinity : String
  /-- Which of two equally near numerals is taken. -/
  tie : Tie

def Layout.exponentText (l : Layout) (e : Int) : List Char :=
  let sign := if e < 0 then ['-'] else if l.marksPlus then ['+'] else []
  'e' :: sign ++ Nat.toDigits 10 e.natAbs

def Layout.decimalText (l : Layout) (d : Decimal) : List Char :=
  let digits := Nat.toDigits 10 d.coefficient
  let lead := d.scale + Int.ofNat digits.length - 1
  if l.positional lead then
    if 0 ≤ d.scale then
      digits ++ List.replicate d.scale.toNat '0' ++ (if l.keepsPoint then ['.', '0'] else [])
    else if 0 ≤ lead then
      digits.take (lead + 1).toNat ++ '.' :: digits.drop (lead + 1).toNat
    else
      '0' :: '.' :: List.replicate (-lead - 1).toNat '0' ++ digits
  else
    match digits with
    | [] => l.exponentText lead
    | [digit] => digit :: l.exponentText lead
    | digit :: rest => digit :: '.' :: rest ++ l.exponentText lead

def Layout.magnitudeText (l : Layout) (code : Nat) : List Char :=
  if code = Binary.infinity then l.infinity.toList
  else if code = 0 then '0' :: (if l.keepsPoint then ['.', '0'] else [])
  else l.decimalText (shortest l.tie code)

def Layout.render (l : Layout) (x : Float) : String :=
  let magnitude := code x
  if Binary.infinity < magnitude then l.notANumber
  else
    let signed := isNegative x && (magnitude != 0 || l.signsZero)
    String.ofList ((if signed then ['-'] else []) ++ l.magnitudeText magnitude)

end Binary
end ComponentMarkup
