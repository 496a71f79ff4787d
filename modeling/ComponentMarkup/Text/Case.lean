import ComponentMarkup.Text.CaseTable

/-!
# Letter case

Lower and upper case of a text by the full mappings of Unicode.  One character
may become several, and a capital sigma at the end of a word becomes the final
form of the small letter.
-/

namespace ComponentMarkup
namespace Text

/-- Whether a character has the property `Cased`. -/
def isCased (c : Char) : Bool :=
  if isAscii c then c.isAlpha else inRanges casedRanges c.toNat

/-- Whether a character has the property `Case_Ignorable`. -/
def isCaseIgnorable (c : Char) : Bool :=
  if isAscii c then c == '\'' || c == '.' || c == ':' || c == '^' || c.toNat == 0x60
  else inRanges caseIgnorableRanges c.toNat

/-- Whether the first character that is not ignorable is cased. -/
def meetsCased (cs : List Char) : Bool :=
  match cs.dropWhile isCaseIgnorable with
  | [] => false
  | c :: _ => isCased c

/-- The lower-case form of one character outside any context. -/
def lowerChar (c : Char) : List Char :=
  if isAscii c then [c.toLower]
  else if c = 'İ' then ['i', '\u0307']
  else [Char.ofNat (applyRuns lowerRuns c.toNat)]

/-- The lower-case form of a character between the characters before it, nearest
first, and the characters after it. -/
def lowerBetween (before : List Char) (c : Char) (after : List Char) : List Char :=
  if c = 'Σ' then
    if meetsCased before && !meetsCased after then ['ς'] else ['σ']
  else lowerChar c

/-- Lower-case the rest of a text behind the characters already read, nearest
first, and the characters already written, last first. -/
def lowercaseOnto (before out : List Char) : List Char → List Char
  | [] => out.reverse
  | c :: after =>
      lowercaseOnto (c :: before) ((lowerBetween before c after).reverse ++ out) after

def lowercase (s : String) : String :=
  String.ofList (lowercaseOnto [] [] s.toList)

def upperChar (c : Char) : List Char :=
  if isAscii c then [c.toUpper]
  else
    match upperSpecial.lookup c.toNat with
    | some codes => codes.map Char.ofNat
    | none => [Char.ofNat (applyRuns upperRuns c.toNat)]

def uppercase (s : String) : String :=
  String.ofList (s.toList.flatMap upperChar)

/-! ## Writing in front of what is already written -/

theorem lowercaseOnto_eq_append (before out cs : List Char) :
    lowercaseOnto before out cs = out.reverse ++ lowercaseOnto before [] cs := by
  induction cs generalizing before out with
  | nil => simp [lowercaseOnto]
  | cons c after ih =>
      rw [lowercaseOnto, lowercaseOnto, ih, ih (c :: before) (_ ++ [])]
      simp

theorem lowercaseOnto_cons (before : List Char) (c : Char) (after : List Char) :
    lowercaseOnto before [] (c :: after) =
      lowerBetween before c after ++ lowercaseOnto (c :: before) [] after := by
  rw [lowercaseOnto, lowercaseOnto_eq_append]
  simp

end Text
end ComponentMarkup
