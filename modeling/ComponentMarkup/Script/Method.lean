import ComponentMarkup.Script.Error
import ComponentMarkup.Text.Case
import ComponentMarkup.Text.Substitution

/-!
# Methods of texts

The operations that an expression can call on a text.  Places and lengths count
characters.  An argument that is missing counts as undefined, and a number in the
place of a position loses its fraction and is moved into the text.
-/

namespace ComponentMarkup
namespace Script

/-- An argument of a call, undefined if it is missing. -/
def argument (arguments : List Value) (place : Nat) : Value :=
  arguments.getD place .undefined

def Value.toWhole (v : Value) : Binary.Whole :=
  Binary.truncate v.toNumber

namespace Method

/-- The greatest length in bytes of a text that is made by repetition: `2 ^ 28`. -/
def lengthLimit : Nat :=
  0x10000000

/-! ## Positions -/

/-- A position counted from the start, or from the end if it is negative. -/
def relativePlace (length : Nat) : Binary.Whole → Nat
  | .negativeInfinity => 0
  | .positiveInfinity => length
  | .finite place =>
      if place < 0 then (Int.ofNat length + place).toNat else min place.toNat length

def clampedPlace (length : Nat) : Binary.Whole → Nat
  | .negativeInfinity => 0
  | .positiveInfinity => length
  | .finite place => min place.toNat length

/-- The position that a value gives by some rule, or another if it is undefined. -/
def placeOr (default : Nat) (rule : Binary.Whole → Nat) (v : Value) : Nat :=
  match v with
  | .undefined => default
  | v => rule v.toWhole

def between (start stop : Nat) (cs : List Char) : List Char :=
  (cs.drop start).take (stop - start)

/-- The character at a position, as a text. -/
def charAt (place : Binary.Whole) (cs : List Char) : String :=
  match place with
  | .finite (.ofNat place) =>
      match cs[place]? with
      | some c => String.singleton c
      | none => ""
  | _ => ""

/-- The part of a text between two relative positions. -/
def slice (start stop : Value) (cs : List Char) : List Char :=
  between (placeOr 0 (relativePlace cs.length) start)
    (placeOr cs.length (relativePlace cs.length) stop) cs

/-- The part of a text between two clamped positions in either order. -/
def substring (a b : Value) (cs : List Char) : List Char :=
  let a := placeOr 0 (clampedPlace cs.length) a
  let b := placeOr cs.length (clampedPlace cs.length) b
  between (min a b) (max a b) cs

/-! ## Repetition -/

def appendTimes (s : String) : Nat → String → String
  | 0, out => out
  | times + 1, out => appendTimes s times (out ++ s)

def repeated (s : String) (count : Binary.Whole) : Except RangeError String :=
  match count with
  | .finite (.ofNat count) =>
      if lengthLimit < s.utf8ByteSize * count then .error .invalidLength
      else if s.isEmpty then .ok ""
      else .ok (appendTimes s count "")
  | count => .error (.invalidCount count)

/-- Append the characters of a pattern over and over, `count` characters in all. -/
def cycleOnto (pattern : List Char) (out : String) : Nat → List Char → String
  | 0, _ => out
  | count + 1, c :: rest => cycleOnto pattern (out.push c) count rest
  | count + 1, [] =>
      match pattern with
      | [] => out
      | c :: rest => cycleOnto pattern (out.push c) count rest

/-- The most bytes that one character of a text has. -/
def widest (cs : List Char) : Nat :=
  cs.foldl (fun width c => max width c.utf8Size) 0

/-- The padding that brings a text to a length, if it must grow at all. -/
def padding (s : String) (target : Binary.Whole) (pattern : String) :
    Except RangeError String :=
  let cs := pattern.toList
  match target with
  | .positiveInfinity => if cs.isEmpty then .ok "" else .error .invalidLength
  | .finite (.ofNat target) =>
      if target ≤ s.length ∨ cs.isEmpty then .ok ""
      else if lengthLimit < s.utf8ByteSize + (target - s.length) * widest cs then
        .error .invalidLength
      else .ok (cycleOnto cs "" (target - s.length) cs)
  | _ => .ok ""

/-- The pattern that pads a text: a space unless another is given. -/
def padPattern : Value → String
  | .undefined => " "
  | v => v.toText

/-! ## Calls -/

/-- A text of some characters, as a value. -/
def ofChars (cs : List Char) : Value :=
  .string (String.ofList cs)

/-- The position of an occurrence, or minus one. -/
def ofPlace : Option Nat → Value
  | some place => .number (Binary.ofNat place)
  | none => .number (Binary.ofInt (-1))

def call (s : String) (method : String) (arguments : List Value) :
    Except EvalError Value :=
  let cs := s.toList
  let first := argument arguments 0
  let second := argument arguments 1
  let pattern := first.toText.toList
  let replacement := second.toText.toList
  match method with
  | "toUpperCase" => .ok (.string (Text.uppercase s))
  | "toLowerCase" => .ok (.string (Text.lowercase s))
  | "trim" => .ok (ofChars (Text.trim cs))
  | "trimStart" => .ok (ofChars (Text.trimStart cs))
  | "trimEnd" => .ok (ofChars (Text.trimEnd cs))
  | "charAt" => .ok (.string (charAt first.toWhole cs))
  | "indexOf" =>
      let start := placeOr 0 (clampedPlace cs.length) second
      .ok (ofPlace (Text.indexOf? pattern start cs))
  | "includes" => .ok (.bool (Text.contains pattern cs))
  | "startsWith" => .ok (.bool (pattern.isPrefixOf cs))
  | "endsWith" => .ok (.bool (pattern.isSuffixOf cs))
  | "slice" => .ok (ofChars (slice first second cs))
  | "substring" => .ok (ofChars (substring first second cs))
  | "repeat" =>
      match repeated s first.toWhole with
      | .ok text => .ok (.string text)
      | .error cause => .error (.ofRange cause)
  | "padStart" =>
      match padding s first.toWhole (padPattern second) with
      | .ok text => .ok (.string (text ++ s))
      | .error cause => .error (.ofRange cause)
  | "padEnd" =>
      match padding s first.toWhole (padPattern second) with
      | .ok text => .ok (.string (s ++ text))
      | .error cause => .error (.ofRange cause)
  | "replace" => .ok (ofChars (Text.replaceFirst pattern replacement cs))
  | "replaceAll" => .ok (ofChars (Text.replaceAll pattern replacement cs))
  | "concat" => .ok (.string (arguments.foldl (fun out v => out ++ v.toText) s))
  | method => .error (.ofType (.notFunction ("string." ++ method)))

end Method
end Script
end ComponentMarkup
