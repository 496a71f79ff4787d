import ComponentMarkup.Proofs.Number.Wholes
import ComponentMarkup.Script.Evaluation

/-!
# Methods on cells

The methods of texts once more, on the row of cells that holds the characters of a text.  A
position stays a binary number until it names a place of the row, and what is computed with it is
rounded.  Each access to the row and each difference of lengths is checked, and there is a fault
where it would leave the row or fall below zero.
-/

namespace ComponentMarkup
namespace Script
namespace Method
namespace Cells

open Binary

inductive Fault where
  | element (place length : Nat)
  | range (start stop length : Nat)
  | difference (minuend subtrahend : Nat)
  | capacity (bytes : Nat)
deriving DecidableEq

/-! ## Checked accesses -/

def element (cells : List Char) (place : Nat) : Except Fault Char :=
  match cells[place]? with
  | some c => .ok c
  | none => .error (.element place cells.length)

def range (cells : List Char) (start stop : Nat) : Except Fault (List Char) :=
  if start ≤ stop ∧ stop ≤ cells.length then .ok (between start stop cells)
  else .error (.range start stop cells.length)

def difference (minuend subtrahend : Nat) : Except Fault Nat :=
  if subtrahend ≤ minuend then .ok (minuend - subtrahend)
  else .error (.difference minuend subtrahend)

/-- Copies of a text, as many bytes as a row can have. -/
def copies (s : String) (count : Nat) : Except Fault String :=
  if s.utf8ByteSize * count < signBit then .ok (appendTimes s count "")
  else .error (.capacity (s.utf8ByteSize * count))

section Accesses

variable {cells : List Char}

theorem element_eq_ok {place : Nat} (h : place < cells.length) :
    element cells place = .ok cells[place] := by
  rw [element, List.getElem?_eq_getElem h]

theorem range_eq_ok {start stop : Nat} (h : start ≤ stop) (hstop : stop ≤ cells.length) :
    range cells start stop = .ok (between start stop cells) :=
  if_pos ⟨h, hstop⟩

theorem difference_eq_ok {minuend subtrahend : Nat} (h : subtrahend ≤ minuend) :
    difference minuend subtrahend = .ok (minuend - subtrahend) :=
  if_pos h

theorem copies_eq_ok {s : String} {count : Nat} (h : s.utf8ByteSize * count < signBit) :
    copies s count = .ok (appendTimes s count "") :=
  if_pos h

end Accesses

/-! ## Positions -/

/-- The place that a position counted from the start or from the end names. -/
def relativeIndex (length : Nat) (place : Whole) : Nat :=
  if place < .finite 0 then (max (Whole.sum (Whole.rounded length) place) (.finite 0)).toPlace
  else (min place (Whole.rounded length)).toPlace

/-- The place in the row that is next to a position. -/
def clampedIndex (length : Nat) (place : Whole) : Nat :=
  (max (.finite 0) (min place (Whole.rounded length))).toPlace

/-! ## Operations -/

def charAt (place : Whole) (cells : List Char) : Except Fault String :=
  if place < .finite 0 ∨ Whole.rounded cells.length ≤ place then .ok ""
  else do
    let c ← element cells place.toPlace
    return String.singleton c

/-- Look for a pattern at so many places from a place on. -/
def findAt (pattern cells : List Char) (place : Nat) : Nat → Except Fault (Option Nat)
  | 0 => .ok none
  | count + 1 => do
      let window ← range cells place (place + pattern.length)
      if window = pattern then return some place
      else findAt pattern cells (place + 1) count

/-- The first place from a start on at which a pattern stands. -/
def find (cells pattern : List Char) (start : Nat) : Except Fault (Option Nat) :=
  if pattern.isEmpty then .ok (some (min start cells.length))
  else if cells.length < pattern.length then .ok none
  else do
    let last ← difference cells.length pattern.length
    findAt pattern cells start (last + 1 - start)

/-- The cells of a range, none if it ends before it starts. -/
def cut (start stop : Nat) (cells : List Char) : Except Fault (List Char) :=
  if stop ≤ start then .ok [] else range cells start stop

def slice (start stop : Value) (cells : List Char) : Except Fault (List Char) :=
  cut (placeOr 0 (relativeIndex cells.length) start)
    (placeOr cells.length (relativeIndex cells.length) stop) cells

def substring (a b : Value) (cells : List Char) : Except Fault (List Char) :=
  let a := placeOr 0 (clampedIndex cells.length) a
  let b := placeOr cells.length (clampedIndex cells.length) b
  cut (min a b) (max a b) cells

def repeated (s : String) (count : Whole) : Except Fault (Except RangeError String) :=
  if count < .finite 0 ∨ count = .positiveInfinity then .ok (.error (.invalidCount count))
  else if lengthLimit < min (s.utf8ByteSize * count.toPlace) (wordCount - 1) then
    .ok (.error .invalidLength)
  else do
    let text ← copies s count.toPlace
    return .ok text

def padding (s : String) (target : Whole) (pattern : String) :
    Except Fault (Except RangeError String) :=
  let cs := pattern.toList
  let missing := Whole.sum target (Whole.rounded (-s.length))
  if target ≤ Whole.rounded s.length ∨ cs.isEmpty then .ok (.ok "")
  else if .finite lengthLimit <
      Whole.sum (Whole.rounded s.utf8ByteSize) (missing.times (widest cs)) then
    .ok (.error .invalidLength)
  else do
    let count ← difference target.toPlace s.length
    return .ok (cycleOnto cs "" count cs)

/-- The value of an operation that can have a range error. -/
def ofResult (result : Except RangeError String) (use : String → String) :
    Except EvalError Value :=
  match result with
  | .ok text => .ok (.string (use text))
  | .error cause => .error (.ofRange cause)

/-- The methods with positions on cells; the others have no access to the row. -/
def call (s : String) (method : String) (arguments : List Value) :
    Except Fault (Except EvalError Value) :=
  let cells := s.toList
  let first := argument arguments 0
  let second := argument arguments 1
  match method with
  | "charAt" => do
      let text ← charAt first.toWhole cells
      return .ok (.string text)
  | "indexOf" => do
      let start := placeOr 0 (clampedIndex cells.length) second
      let place ← find cells first.toText.toList start
      return .ok (ofPlace place)
  | "slice" => do
      let cs ← slice first second cells
      return .ok (ofChars cs)
  | "substring" => do
      let cs ← substring first second cells
      return .ok (ofChars cs)
  | "repeat" => do
      let result ← repeated s first.toWhole
      return ofResult result id
  | "padStart" => do
      let result ← padding s first.toWhole (padPattern second)
      return ofResult result (· ++ s)
  | "padEnd" => do
      let result ← padding s first.toWhole (padPattern second)
      return ofResult result (s ++ ·)
  | method => .ok (Method.call s method arguments)

/-- The character at the place that a number names, if it is whole and not negative. -/
def readPlace (s : String) (place : Float) : Value :=
  match toInt? place with
  | none => .undefined
  | some place =>
      if place < 0 then .undefined
      else
        match s.toList[(Whole.finite place).toPlace]? with
        | some c => .string (String.singleton c)
        | none => .undefined

def readIndex (s : String) (index : Value) : Value :=
  if index.asString? = some "length" then lengthValue s else readPlace s index.toNumber

end Cells
end Method
end Script
end ComponentMarkup
