import ComponentMarkup.Script.Token
import ComponentMarkup.Script.Value

/-!
# Errors of evaluation

Why the code of an expression has no value, and how a message says so.
-/

namespace ComponentMarkup
namespace Script

inductive Malformed where
  | unexpectedCharacter (c : Char)
  | invalidNumber (text : String)
  | unterminatedString
  | invalidEscape
deriving DecidableEq

def Malformed.message : Malformed → String
  | .unexpectedCharacter c => "Unexpected character: " ++ String.singleton c
  | .invalidNumber text => "Invalid number: " ++ text
  | .unterminatedString => "Unterminated string"
  | .invalidEscape => "Invalid unicode escape"

inductive Expectation where
  | semicolon
  | identifier
  | propertyName
  | expression
  | token (t : Token)
deriving DecidableEq

def Expectation.label : Expectation → String
  | .semicolon => "';'"
  | .identifier => "identifier"
  | .propertyName => "property name"
  | .expression => "expression"
  | .token t => t.label

inductive SyntaxError where
  /-- A malformed token and the place behind it. -/
  | malformed (cause : Malformed) (offset : Nat)
  /-- A token, or the end, in the place of something else. -/
  | unexpected (expected : Expectation) (found : Option Token)
deriving DecidableEq

def SyntaxError.message : SyntaxError → String
  | .malformed cause offset => s!"{cause.message} (at offset {offset})"
  | .unexpected expected none => s!"expected {expected.label}, found Eof"
  | .unexpected expected (some found) =>
      s!"expected {expected.label}, found {found.label}"

inductive TypeError where
  /-- A property of nothing was read. -/
  | unreadable (target : Value) (property : String)
  /-- Something that is not a function was called. -/
  | notFunction (callee : String)
deriving DecidableEq

def TypeError.message : TypeError → String
  | .unreadable target property =>
      s!"Cannot read properties of {target.toText} (reading '{property}')"
  | .notFunction callee => s!"{callee} is not a function"

inductive RangeError where
  | invalidCount (count : Binary.Whole)
  | invalidLength
deriving DecidableEq

/-- The layout of repetition counts in messages: digits are always written out. -/
def countLayout : Binary.Layout where
  positional _ := true
  keepsPoint := false
  marksPlus := false
  signsZero := true
  notANumber := "NaN"
  infinity := "inf"
  tie := .upper

def countText : Binary.Whole → String
  | .negativeInfinity => "-inf"
  | .positiveInfinity => "inf"
  | .finite value => countLayout.render (Binary.ofInt value)

def RangeError.message : RangeError → String
  | .invalidCount count => s!"Invalid count value: {countText count}"
  | .invalidLength => "Invalid string length"

inductive EvalError where
  | ofSyntax (cause : SyntaxError)
  | reference (name : String)
  | ofType (cause : TypeError)
  | ofRange (cause : RangeError)
  | tooDeep (limit : Nat)
  /-- A failure that an evaluator reports in its own words. -/
  | host (message : String)
deriving DecidableEq

def EvalError.message : EvalError → String
  | .ofSyntax cause => s!"SyntaxError: {cause.message}"
  | .reference name => s!"ReferenceError: {name} is not defined"
  | .ofType cause => s!"TypeError: {cause.message}"
  | .ofRange cause => s!"RangeError: {cause.message}"
  | .tooDeep limit => s!"InternalError: expression nested deeper than {limit} levels"
  | .host message => message

end Script
end ComponentMarkup
