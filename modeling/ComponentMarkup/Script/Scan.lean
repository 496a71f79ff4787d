import ComponentMarkup.Script.Error
import ComponentMarkup.Text.Letter

/-!
# From code to tokens

The code of an expression is read from the left.  Blanks and comments between
tokens are passed over, and each token is the longest one that starts at its
place.  Every reader tells how many characters it takes, so the place behind a
token is the sum of the sizes before it.
-/

namespace ComponentMarkup
namespace Script

/-- A token or the reason why there is none at a place. -/
abbrev Reading := Except Malformed Token

/-! ## Blanks and comments -/

/-- What the characters between two tokens belong to. -/
inductive Gap where
  | blanks
  /-- A slash that may start a comment. -/
  | slash
  | lineComment
  | blockComment
  /-- A star that may end a comment. -/
  | blockStar

/-- The number of characters before the next token, added to those counted so
far.  A comment that is not closed extends to the end, and a slash that starts no
comment is a token. -/
def gapSize (gap : Gap) (count : Nat) : List Char → Nat
  | [] => count
  | c :: rest =>
      match gap with
      | .blanks =>
          if Text.isBlank c then gapSize .blanks (count + 1) rest
          else if c = '/' then gapSize .slash count rest
          else count
      | .slash =>
          if c = '/' then gapSize .lineComment (count + 2) rest
          else if c = '*' then gapSize .blockComment (count + 2) rest
          else count
      | .lineComment =>
          if c = '\n' then gapSize .blanks (count + 1) rest
          else gapSize .lineComment (count + 1) rest
      | .blockComment =>
          if c = '*' then gapSize .blockStar (count + 1) rest
          else gapSize .blockComment (count + 1) rest
      | .blockStar =>
          if c = '/' then gapSize .blanks (count + 1) rest
          else if c = '*' then gapSize .blockStar (count + 1) rest
          else gapSize .blockComment (count + 1) rest

/-! ## Words and numbers -/

def startsWord (c : Char) : Bool :=
  Text.isAlphabetic c || c == '_' || c == '$'

def continuesWord (c : Char) : Bool :=
  Text.isAlphanumeric c || c == '_' || c == '$'

def readWord (cs : List Char) : Reading × Nat :=
  let word := cs.takeWhile continuesWord
  (.ok (Token.ofWord (String.ofList word)), word.length)

def readHexNumber (cs : List Char) : Reading × Nat :=
  let digits := cs.takeWhile Text.Hexadecimal.isDigit
  match hexValue? digits with
  | some value => (.ok (.number value), digits.length)
  | none => (.error (.invalidNumber ("0x" ++ String.ofList digits)), digits.length)

/-- The point and the digits at the front of a text; a point counts only before
a digit. -/
def fractionPart : List Char → List Char
  | '.' :: rest =>
      let digits := rest.takeWhile Char.isDigit
      if digits.isEmpty then [] else '.' :: digits
  | _ => []

def signPart : List Char → List Char
  | '+' :: _ => ['+']
  | '-' :: _ => ['-']
  | _ => []

/-- The exponent at the front of a text, with or without digits. -/
def exponentPart : List Char → List Char
  | [] => []
  | mark :: rest =>
      if mark = 'e' ∨ mark = 'E' then
        let sign := signPart rest
        mark :: sign ++ (rest.drop sign.length).takeWhile Char.isDigit
      else []

/-- The characters that a decimal number takes, whether or not they are a
numeral. -/
def decimalPart (cs : List Char) : List Char :=
  let whole := cs.takeWhile Char.isDigit
  let afterWhole := cs.dropWhile Char.isDigit
  let fraction := fractionPart afterWhole
  whole ++ fraction ++ exponentPart (afterWhole.drop fraction.length)

def readNumber (cs : List Char) : Reading × Nat :=
  match afterHexMark? cs with
  | some rest =>
      let (reading, size) := readHexNumber rest
      (reading, size + 2)
  | none =>
      let taken := decimalPart cs
      match Numeral.read? taken with
      | some n => (.ok (.number n.value), taken.length)
      | none => (.error (.invalidNumber (String.ofList taken)), taken.length)

/-! ## Strings -/

/-- The character with a code, unless the code is a surrogate. -/
def charOfCode? (code : Nat) : Option Char :=
  if code < 0xD800 ∨ 0xDFFF < code then some (Char.ofNat code) else none

inductive StringPlace where
  /-- Between two characters of the string. -/
  | plain
  /-- Behind a backslash. -/
  | escape
  /-- Inside a code of four digits, with the digits to come and the code so far. -/
  | code (missing : Nat) (soFar : Nat)

/-- Read a string behind its opening quote.  The characters read so far come last
first, and `count` is the number of characters taken. -/
def readString (quote : Char) (seen : List Char) (count : Nat) (place : StringPlace) :
    List Char → Reading × Nat
  | [] =>
      match place with
      | .code _ _ => (.error .invalidEscape, count)
      | _ => (.error .unterminatedString, count)
  | c :: rest =>
      match place with
      | .plain =>
          if c = quote then (.ok (.string (String.ofList seen.reverse)), count + 1)
          else if c = '\\' then readString quote seen (count + 1) .escape rest
          else readString quote (c :: seen) (count + 1) .plain rest
      | .escape =>
          if c = 'n' then readString quote ('\n' :: seen) (count + 1) .plain rest
          else if c = 'r' then readString quote ('\r' :: seen) (count + 1) .plain rest
          else if c = 't' then readString quote ('\t' :: seen) (count + 1) .plain rest
          else if c = '0' then readString quote ('\x00' :: seen) (count + 1) .plain rest
          else if c = 'u' then readString quote seen (count + 1) (.code 4 0) rest
          else readString quote (c :: seen) (count + 1) .plain rest
      | .code missing soFar =>
          if Text.Hexadecimal.isDigit c then
            let code := 16 * soFar + Text.Hexadecimal.digitValue c
            if missing = 1 then
              match charOfCode? code with
              | some decoded => readString quote (decoded :: seen) (count + 1) .plain rest
              | none => (.error .invalidEscape, count + 1)
            else readString quote seen (count + 1) (.code (missing - 1) code) rest
          else (.error .invalidEscape, count + 1)

/-! ## Signs -/

/-- Read the operator or mark that starts with a given character. -/
def readSign (c : Char) (rest : List Char) : Reading × Nat :=
  match c, rest with
  | '+', _ => (.ok .plus, 1)
  | '-', _ => (.ok .minus, 1)
  | '*', _ => (.ok .star, 1)
  | '/', _ => (.ok .slash, 1)
  | '%', _ => (.ok .percent, 1)
  | '=', '=' :: '=' :: _ => (.ok .strictEqual, 3)
  | '=', '=' :: _ => (.ok .equal, 2)
  | '=', _ => (.ok .assign, 1)
  | '!', '=' :: '=' :: _ => (.ok .strictNotEqual, 3)
  | '!', '=' :: _ => (.ok .notEqual, 2)
  | '!', _ => (.ok .bang, 1)
  | '<', '=' :: _ => (.ok .lessEqual, 2)
  | '<', _ => (.ok .less, 1)
  | '>', '=' :: _ => (.ok .greaterEqual, 2)
  | '>', _ => (.ok .greater, 1)
  | '&', '&' :: _ => (.ok .andAnd, 2)
  | '|', '|' :: _ => (.ok .orOr, 2)
  | '?', _ => (.ok .question, 1)
  | ':', _ => (.ok .colon, 1)
  | ';', _ => (.ok .semicolon, 1)
  | ',', _ => (.ok .comma, 1)
  | '.', _ => (.ok .dot, 1)
  | '(', _ => (.ok .leftParen, 1)
  | ')', _ => (.ok .rightParen, 1)
  | '[', _ => (.ok .leftBracket, 1)
  | ']', _ => (.ok .rightBracket, 1)
  | c, _ => (.error (.unexpectedCharacter c), 1)

/-! ## Tokens with their places -/

/-- Whether a number starts with a given character: a digit, or a point before a
digit. -/
def startsNumber (c : Char) (rest : List Char) : Bool :=
  c.isDigit || (c == '.' && rest.head?.any Char.isDigit)

/-- Read the token that starts with a given character. -/
def readToken (c : Char) (rest : List Char) : Reading × Nat :=
  if startsWord c then readWord (c :: rest)
  else if startsNumber c rest then readNumber (c :: rest)
  else if c = '"' ∨ c = '\'' then readString c [] 1 .plain rest
  else readSign c rest

/-! ## Every token takes characters away -/

theorem count_le_size_readString (quote : Char) (seen : List Char) (count : Nat)
    (place : StringPlace) (cs : List Char) :
    count ≤ (readString quote seen count place cs).2 := by
  induction cs generalizing seen count place with
  | nil =>
      cases place with
      | plain => exact Nat.le_refl count
      | escape => exact Nat.le_refl count
      | code missing soFar => exact Nat.le_refl count
  | cons c rest ih =>
      have step (seen : List Char) (place : StringPlace) :
          count ≤ (readString quote seen (count + 1) place rest).2 :=
        Nat.le_of_succ_le (ih seen (count + 1) place)
      cases place with
      | plain =>
          unfold readString
          dsimp only
          split
          · exact Nat.le_succ count
          · split
            · exact step seen .escape
            · exact step (c :: seen) .plain
      | escape =>
          unfold readString
          dsimp only
          repeat' split
          all_goals exact step _ _
      | code missing soFar =>
          unfold readString
          dsimp only
          split
          · split
            · split
              · exact step _ .plain
              · exact Nat.le_succ count
            · exact step seen _
          · exact Nat.le_succ count

theorem startsWord_continuesWord {c : Char} (h : startsWord c = true) :
    continuesWord c = true := by
  unfold startsWord at h
  unfold continuesWord Text.isAlphanumeric
  simp only [Bool.or_eq_true] at h ⊢
  rcases h with (h | h) | h
  · exact .inl (.inl (.inl h))
  · exact .inl (.inr h)
  · exact .inr h

theorem size_readWord_pos {c : Char} (rest : List Char) (h : startsWord c = true) :
    1 ≤ (readWord (c :: rest)).2 := by
  simp [readWord, startsWord_continuesWord h]

theorem length_fractionPart_pos {d : Char} (rest : List Char) (h : d.isDigit = true) :
    1 ≤ (fractionPart ('.' :: d :: rest)).length := by
  rw [fractionPart, List.takeWhile_cons, if_pos h]
  simp

theorem length_decimalPart_pos {c : Char} {rest : List Char}
    (h : startsNumber c rest = true) : 1 ≤ (decimalPart (c :: rest)).length := by
  unfold decimalPart
  simp only [List.length_append]
  by_cases hc : c.isDigit = true
  · simp only [List.takeWhile_cons, hc, if_true, List.length_cons]
    omega
  · have hpoint : c = '.' ∧ rest.head?.any Char.isDigit = true := by
      simpa [startsNumber, hc] using h
    cases rest with
    | nil => simp at hpoint
    | cons d rest =>
        have hd : d.isDigit = true := by simpa using hpoint.2
        have hfraction := length_fractionPart_pos rest hd
        simp only [List.dropWhile_cons, hpoint.1, show ('.' : Char).isDigit = false from rfl]
        simp only [Bool.false_eq_true, if_false]
        omega

theorem size_readNumber_pos {c : Char} {rest : List Char}
    (h : startsNumber c rest = true) : 1 ≤ (readNumber (c :: rest)).2 := by
  unfold readNumber
  split
  · simp
  · have := length_decimalPart_pos h
    dsimp only
    split <;> exact this

theorem size_readSign_pos (c : Char) (rest : List Char) : 1 ≤ (readSign c rest).2 := by
  unfold readSign
  split <;> simp

theorem size_readToken_pos (c : Char) (rest : List Char) : 1 ≤ (readToken c rest).2 := by
  unfold readToken
  split
  · rename_i h
    exact size_readWord_pos rest h
  · split
    · rename_i h
      exact size_readNumber_pos h
    · split
      · exact count_le_size_readString c [] 1 .plain rest
      · exact size_readSign_pos c rest

/-! ## The tokens of some code -/

/-- What is read of some code: a token or the reason why there is none, and the
place behind it. -/
structure Lexeme where
  reading : Reading
  offset : Nat

/-- A place in some code and the characters behind it. -/
structure Source where
  offset : Nat
  ahead : List Char

namespace Source

def ofText (code : String) : Source :=
  ⟨0, code.toList⟩

def skip (s : Source) (count : Nat) : Source :=
  ⟨s.offset + count, s.ahead.drop count⟩

/-- Pass the blanks and comments before the next token. -/
def skipGap (s : Source) : Source :=
  s.skip (gapSize .blanks 0 s.ahead)

/-- Read the token at a place that is not in a gap. -/
def readHere? (s : Source) : Option (Lexeme × Source) :=
  match s.ahead with
  | [] => none
  | c :: rest =>
      let token := readToken c rest
      some (⟨token.1, s.offset + token.2⟩, s.skip token.2)

/-- Read the next token, unless the code ends before it. -/
def next? (s : Source) : Option (Lexeme × Source) :=
  s.skipGap.readHere?

theorem length_skip_le (s : Source) (count : Nat) :
    (s.skip count).ahead.length ≤ s.ahead.length := by
  simp [skip]

theorem length_of_readHere? {s after : Source} {l : Lexeme}
    (h : s.readHere? = some (l, after)) : after.ahead.length < s.ahead.length := by
  unfold readHere? at h
  split at h
  · cases h
  · rename_i c rest hahead
    have hsize := size_readToken_pos c rest
    simp only [Option.some.injEq, Prod.mk.injEq] at h
    rw [← h.2]
    simp only [skip, List.length_drop, hahead, List.length_cons]
    omega

theorem length_of_next? {s after : Source} {l : Lexeme} (h : s.next? = some (l, after)) :
    after.ahead.length < s.ahead.length :=
  Nat.lt_of_lt_of_le (length_of_readHere? h) (length_skip_le s _)

end Source

/-- Read all tokens behind those already read, last first, malformed ones
included: the tokens and the place at which the code ends. -/
def lexemesOnto (seen : List Lexeme) (s : Source) : List Lexeme × Nat :=
  match _h : s.next? with
  | none => (seen.reverse, s.skipGap.offset)
  | some (l, after) => lexemesOnto (l :: seen) after
termination_by s.ahead.length
decreasing_by exact Source.length_of_next? _h

/-- The tokens of some code, malformed ones included, and the place at which the
code ends. -/
def lexemes (code : String) : List Lexeme × Nat :=
  lexemesOnto [] (Source.ofText code)

/-- The well-formed tokens in front of the first malformed one, behind those
already met, last first, and the error that stands there. -/
def splitMalformedOnto (seen : List Token) : List Lexeme → List Token × Option SyntaxError
  | [] => (seen.reverse, none)
  | ⟨.ok t, _⟩ :: rest => splitMalformedOnto (t :: seen) rest
  | ⟨.error cause, offset⟩ :: _ => (seen.reverse, some (.malformed cause offset))

/-- The tokens of some code up to the first malformed one, and the error that
stands there. -/
def tokens (code : String) : List Token × Option SyntaxError :=
  splitMalformedOnto [] (lexemes code).1

end Script
end ComponentMarkup
