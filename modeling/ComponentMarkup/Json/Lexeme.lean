import ComponentMarkup.Json.Number
import ComponentMarkup.Text.Hexadecimal

/-!
# Lexemes of JSON

A JSON text is a row of lexemes with blanks between them.  The blanks are the
space, the tab, the line feed and the carriage return.  A string lexeme whose
escapes do not form characters, because a surrogate stands alone, has no
content but is still a lexeme.
-/

namespace ComponentMarkup
namespace Json

inductive Lexeme where
  | arrayOpen
  | arrayClose
  | objectOpen
  | objectClose
  | colon
  | comma
  | null
  | bool (value : Bool)
  | number (numeral : Numeral)
  /-- A string and its content, if its escapes form characters. -/
  | string (content : Option String)
deriving DecidableEq

namespace Lexeme

def isBlank (c : Char) : Bool :=
  c == ' ' || c == '\t' || c == '\n' || c == '\r'

/-- The code that four characters denote, if they are hexadecimal digits. -/
def escapedCode? (a b c d : Char) : Option Nat :=
  if [a, b, c, d].all Text.Hexadecimal.isDigit then
    some (Text.Hexadecimal.value [a, b, c, d])
  else none

/-- Whether a code is the first half of a surrogate pair. -/
def isLeading (code : Nat) : Bool :=
  0xD800 ≤ code && code < 0xDC00

/-- Whether a code is the second half of a surrogate pair. -/
def isTrailing (code : Nat) : Bool :=
  0xDC00 ≤ code && code < 0xE000

def pairChar (leading trailing : Nat) : Char :=
  Char.ofNat ((leading - 0xD800) * 0x400 + (trailing - 0xDC00) + 0x10000)

def shortEscape? (c : Char) : Option Char :=
  if c = '"' then some '"'
  else if c = '\\' then some '\\'
  else if c = '/' then some '/'
  else if c = 'b' then some '\x08'
  else if c = 'f' then some '\x0c'
  else if c = 'n' then some '\n'
  else if c = 'r' then some '\r'
  else if c = 't' then some '\t'
  else none

/-- Read a string behind its opening quote.  The characters read so far come
last first, `whole` tells whether every escape so far formed a character, and
`leading` is the first half of a pair whose second half must come next. -/
def scanString (whole : Bool) (leading : Option Nat) (seen : List Char) :
    List Char → Option (Option String × List Char)
  | [] => none
  | '"' :: rest =>
      some (if whole && leading.isNone then some (String.ofList seen.reverse) else none, rest)
  | '\\' :: 'u' :: a :: b :: c :: d :: rest =>
      match escapedCode? a b c d with
      | none => none
      | some code =>
          match leading with
          | some first =>
              if isTrailing code then scanString whole none (pairChar first code :: seen) rest
              else scanString false none seen rest
          | none =>
              if isLeading code then scanString whole (some code) seen rest
              else if isTrailing code then scanString false none seen rest
              else scanString whole none (Char.ofNat code :: seen) rest
  | '\\' :: letter :: rest =>
      match shortEscape? letter with
      | none => none
      | some c => scanString (whole && leading.isNone) none (c :: seen) rest
  | c :: rest =>
      if c.toNat < 0x20 then none
      else scanString (whole && leading.isNone) none (c :: seen) rest

/-- Read the digits before the point: a zero alone, or digits that do not start
with zero. -/
def scanWhole (cs : List Char) : Option (List Char × List Char) :=
  let digits := cs.takeWhile Char.isDigit
  match digits with
  | [] => none
  | ['0'] => some (digits, cs.dropWhile Char.isDigit)
  | '0' :: _ => none
  | _ => some (digits, cs.dropWhile Char.isDigit)

/-- Read a point and the digits that must follow it. -/
def scanFraction : List Char → Option (List Char × List Char)
  | '.' :: rest =>
      let digits := rest.takeWhile Char.isDigit
      if digits.isEmpty then none else some (digits, rest.dropWhile Char.isDigit)
  | rest => some ([], rest)

/-- Read an exponent and the digits that it must have. -/
def scanExponent (cs : List Char) : Option (Option (Bool × List Char) × List Char) :=
  match cs with
  | [] => some (none, [])
  | mark :: afterMark =>
      if mark = 'e' ∨ mark = 'E' then
        let (negative, afterSign) := ComponentMarkup.Numeral.scanSign afterMark
        let digits := afterSign.takeWhile Char.isDigit
        if digits.isEmpty then none
        else some (some (negative, digits), afterSign.dropWhile Char.isDigit)
      else some (none, cs)

def scanNumber (negative : Bool) (cs : List Char) : Option (Numeral × List Char) := do
  let (whole, afterWhole) ← scanWhole cs
  let (fraction, afterFraction) ← scanFraction afterWhole
  let (exponent, rest) ← scanExponent afterFraction
  return (⟨negative, whole, fraction, exponent⟩, rest)

/-- Read the lexeme that starts with a given character. -/
def scan? (c : Char) (rest : List Char) : Option (Lexeme × List Char) :=
  match c with
  | '[' => some (.arrayOpen, rest)
  | ']' => some (.arrayClose, rest)
  | '\x7b' => some (.objectOpen, rest)
  | '\x7d' => some (.objectClose, rest)
  | ':' => some (.colon, rest)
  | ',' => some (.comma, rest)
  | '"' => (scanString true none [] rest).map fun (content, after) => (.string content, after)
  | '-' => (scanNumber true rest).map fun (n, after) => (.number n, after)
  | 'n' =>
      match rest with
      | 'u' :: 'l' :: 'l' :: after => some (.null, after)
      | _ => none
  | 't' =>
      match rest with
      | 'r' :: 'u' :: 'e' :: after => some (.bool true, after)
      | _ => none
  | 'f' =>
      match rest with
      | 'a' :: 'l' :: 's' :: 'e' :: after => some (.bool false, after)
      | _ => none
  | c => (scanNumber false (c :: rest)).map fun (n, after) => (.number n, after)

/-! ## Every lexeme takes characters away -/

theorem length_of_scanString {whole : Bool} {leading : Option Nat} {seen cs rest : List Char}
    {content : Option String}
    (h : scanString whole leading seen cs = some (content, rest)) :
    rest.length < cs.length := by
  fun_induction scanString whole leading seen cs <;> simp_all <;> omega

theorem length_of_scanWhole {cs digits rest : List Char}
    (h : scanWhole cs = some (digits, rest)) : rest.length < cs.length := by
  cases cs with
  | nil => simp [scanWhole] at h
  | cons c cs =>
      by_cases hc : c.isDigit = true
      · have hle := (List.dropWhile_sublist Char.isDigit (l := cs)).length_le
        unfold scanWhole at h
        simp only [List.takeWhile_cons, List.dropWhile_cons, hc, if_true] at h
        have hrest : rest = cs.dropWhile Char.isDigit := by
          split at h
          · cases h
          · exact (congrArg Prod.snd (Option.some.inj h)).symm
          · cases h
          · exact (congrArg Prod.snd (Option.some.inj h)).symm
        rw [hrest, List.length_cons]
        omega
      · unfold scanWhole at h
        simp [hc] at h

theorem length_of_scanFraction {cs digits rest : List Char}
    (h : scanFraction cs = some (digits, rest)) : rest.length ≤ cs.length := by
  unfold scanFraction at h
  split at h
  · rename_i after
    have hle := (List.dropWhile_sublist Char.isDigit (l := after)).length_le
    simp only [Option.ite_none_left_eq_some, Option.some.injEq, Prod.mk.injEq] at h
    obtain ⟨_, _, rfl⟩ := h
    simp only [List.length_cons]
    omega
  · simp only [Option.some.injEq, Prod.mk.injEq] at h
    obtain ⟨_, rfl⟩ := h
    exact Nat.le_refl _

theorem length_scanSign_le (cs : List Char) :
    (ComponentMarkup.Numeral.scanSign cs).2.length ≤ cs.length := by
  unfold ComponentMarkup.Numeral.scanSign
  split <;> simp

theorem length_of_scanExponent {cs rest : List Char} {exponent : Option (Bool × List Char)}
    (h : scanExponent cs = some (exponent, rest)) : rest.length ≤ cs.length := by
  unfold scanExponent at h
  split at h
  · simp only [Option.some.injEq, Prod.mk.injEq] at h
    obtain ⟨_, rfl⟩ := h
    exact Nat.le_refl _
  · rename_i mark after
    split at h
    · have hsign := length_scanSign_le after
      have hdrop := (List.dropWhile_sublist Char.isDigit
        (l := (ComponentMarkup.Numeral.scanSign after).2)).length_le
      simp only [Option.ite_none_left_eq_some, Option.some.injEq, Prod.mk.injEq] at h
      obtain ⟨_, _, rfl⟩ := h
      simp only [List.length_cons]
      omega
    · simp only [Option.some.injEq, Prod.mk.injEq] at h
      obtain ⟨_, rfl⟩ := h
      exact Nat.le_refl _

theorem length_of_scanNumber {negative : Bool} {cs rest : List Char} {n : Numeral}
    (h : scanNumber negative cs = some (n, rest)) : rest.length < cs.length := by
  unfold scanNumber at h
  simp only [Option.bind_eq_bind, Option.bind_eq_some_iff, Prod.exists, Option.pure_def,
    Option.some.injEq, Prod.mk.injEq] at h
  obtain ⟨whole, afterWhole, hwhole, fraction, afterFraction, hfraction, exponent,
    afterExponent, hexponent, _, hrest⟩ := h
  have := length_of_scanWhole hwhole
  have := length_of_scanFraction hfraction
  have := length_of_scanExponent hexponent
  rw [← hrest]
  omega

theorem length_of_scan? {c : Char} {cs rest : List Char} {l : Lexeme}
    (h : scan? c cs = some (l, rest)) : rest.length ≤ cs.length := by
  unfold scan? at h
  split at h
  case h_7 =>
    simp only [Option.map_eq_some_iff, Prod.exists, Prod.mk.injEq] at h
    obtain ⟨content, after, hscan, _, rfl⟩ := h
    exact Nat.le_of_lt (length_of_scanString hscan)
  case h_8 =>
    simp only [Option.map_eq_some_iff, Prod.exists, Prod.mk.injEq] at h
    obtain ⟨n, after, hscan, _, rfl⟩ := h
    exact Nat.le_of_lt (length_of_scanNumber hscan)
  case h_12 =>
    simp only [Option.map_eq_some_iff, Prod.exists, Prod.mk.injEq] at h
    obtain ⟨n, after, hscan, _, rfl⟩ := h
    have := length_of_scanNumber hscan
    simp only [List.length_cons] at this
    omega
  case h_9 | h_10 | h_11 =>
    split at h
    · simp only [Option.some.injEq, Prod.mk.injEq] at h
      obtain ⟨_, rfl⟩ := h
      simp only [List.length_cons]
      omega
    · cases h
  all_goals
    simp only [Option.some.injEq, Prod.mk.injEq] at h
    obtain ⟨_, rfl⟩ := h
    exact Nat.le_refl _

/-! ## The lexemes of a text -/

/-- Read the lexemes of a text behind those already read, last first. -/
def readOnto (seen : List Lexeme) : List Char → Option (List Lexeme)
  | [] => some seen.reverse
  | c :: rest =>
      if isBlank c then readOnto seen rest
      else
        match _h : scan? c rest with
        | none => none
        | some (l, after) => readOnto (l :: seen) after
termination_by cs => cs.length
decreasing_by
  · simp
  · have := length_of_scan? _h
    simp only [List.length_cons]
    omega

/-- The lexemes of a text, if it consists of lexemes and blanks. -/
def read (cs : List Char) : Option (List Lexeme) :=
  readOnto [] cs

end Lexeme
end Json
end ComponentMarkup
