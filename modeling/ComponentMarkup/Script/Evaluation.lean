import ComponentMarkup.Json.Quoted
import ComponentMarkup.Scope
import ComponentMarkup.Script.Method
import ComponentMarkup.Script.Parse
import ComponentMarkup.Text.Percent

/-!
# Evaluation of programs

A name means the value last declared for it, else the text that the scope binds
to it, else a constant.  Expressions change nothing; only declarations do, and
those made before a failure stay.
-/

namespace ComponentMarkup
namespace Script

structure Environment where
  scope : Scope
  /-- The declared names with their values, latest first. -/
  locals : List (String × Value)

namespace Environment

def ofScope (scope : Scope) : Environment :=
  ⟨scope, []⟩

def declare (e : Environment) (name : String) (value : Value) : Environment :=
  { e with locals := (name, value) :: e.locals }

/-- The value that is declared for a name or bound to it. -/
def bound? (e : Environment) (name : String) : Option Value :=
  match e.locals.lookup name with
  | some value => some value
  | none => (e.scope.get? name).map .string

def constant? (name : String) : Option Value :=
  match name with
  | "NaN" => some (.number Binary.notANumber)
  | "Infinity" => some (.number Binary.positiveInfinity)
  | _ => none

def lookup? (e : Environment) (name : String) : Option Value :=
  match e.bound? name with
  | some value => some value
  | none => constant? name

/-- Whether a name has a value of its own, constants aside. -/
def isBound (e : Environment) (name : String) : Bool :=
  (e.bound? name).isSome

end Environment

/-! ## Operators -/

def applyBinary (op : BinaryOp) (a b : Value) : Value :=
  match op with
  | .add =>
      match a, b with
      | .string _, _ => .string (a.toText ++ b.toText)
      | _, .string _ => .string (a.toText ++ b.toText)
      | _, _ => .number (a.toNumber + b.toNumber)
  | .subtract => .number (a.toNumber - b.toNumber)
  | .multiply => .number (a.toNumber * b.toNumber)
  | .divide => .number (a.toNumber / b.toNumber)
  | .remainder => .number (Binary.remainder a.toNumber b.toNumber)
  | .equal => .bool (a.looseEquals b)
  | .notEqual => .bool (!a.looseEquals b)
  | .strictEqual => .bool (a.strictEquals b)
  | .strictNotEqual => .bool (!a.strictEquals b)
  | .less => .bool (a.lessThan b)
  | .lessEqual => .bool (a.atMost b)
  | .greater => .bool (b.lessThan a)
  | .greaterEqual => .bool (b.atMost a)

def applyUnary (op : UnaryOp) (v : Value) : Value :=
  match op with
  | .not => .bool (!v.toBool)
  | .negate => .number (-v.toNumber)
  | .plus => .number v.toNumber
  | .typeOf => .string v.typeName

/-! ## Members and indices -/

/-- The number of characters of a text, as a value. -/
def lengthValue (s : String) : Value :=
  .number (Binary.ofNat s.length)

def readMember (target : Value) (property : String) : Except EvalError Value :=
  match target with
  | .undefined => .error (.ofType (.unreadable target property))
  | .null => .error (.ofType (.unreadable target property))
  | .string s => .ok (if property = "length" then lengthValue s else .undefined)
  | _ => .ok .undefined

/-- The character of a text at a place that a number gives. -/
def readPlace (s : String) (place : Float) : Value :=
  match Binary.toInt? place with
  | some (.ofNat place) =>
      match s.toList[place]? with
      | some c => .string (String.singleton c)
      | none => .undefined
  | _ => .undefined

def readIndex (target index : Value) : Except EvalError Value :=
  match target with
  | .undefined => .error (.ofType (.unreadable target index.toText))
  | .null => .error (.ofType (.unreadable target index.toText))
  | .string s =>
      .ok (if index.asString? = some "length" then lengthValue s
        else readPlace s index.toNumber)
  | _ => .ok .undefined

/-- The member of the namespace of mathematical constants. -/
def mathConstant (property : String) : Value :=
  match property with
  | "PI" => .number (Binary.ofCode false 0x400921FB54442D18)
  | "E" => .number (Binary.ofCode false 0x4005BF0A8B145769)
  | _ => .undefined

/-! ## Functions -/

def stringify (v : Value) : Value :=
  match v with
  | .undefined => .undefined
  | .null => .string "null"
  | .bool _ => .string v.toText
  | .number x =>
      if Binary.code x < Binary.infinity then .string v.toText else .string "null"
  | .string s => .string (Json.quoted s)

/-- The value of a call of a function that has no object. -/
def callFunction (name : String) (arguments : List Value) : Except EvalError Value :=
  let first := argument arguments 0
  match name with
  | "String" => .ok (.string (arguments.head?.elim "" Value.toText))
  | "Number" => .ok (.number (arguments.head?.elim (Binary.ofNat 0) Value.toNumber))
  | "parseInt" => .ok (.number (integerOfFront first.toText))
  | "parseFloat" => .ok (.number (numberOfFront first.toText))
  | "isNaN" => .ok (.bool (Binary.infinity < Binary.code first.toNumber))
  | "encodeURIComponent" => .ok (.string (Text.Percent.encode first.toText))
  | "Math" => .error (.ofType (.notFunction name))
  | "JSON" => .error (.ofType (.notFunction name))
  | name => .error (.reference name)

/-- Round to the nearest whole number; a half goes up. -/
def roundHalfUp (x : Float) : Float :=
  if x - x.floor == 0.5 then x.ceil else x.round

def isNotANumber (x : Float) : Bool :=
  Binary.infinity < Binary.code x

/-- The lesser of two numbers, if both are numbers. -/
def lesser (x y : Float) : Float :=
  if isNotANumber x || isNotANumber y then Binary.notANumber
  else if y < x then y else x

/-- The greater of two numbers, if both are numbers. -/
def greater (x y : Float) : Float :=
  if isNotANumber x || isNotANumber y then Binary.notANumber
  else if x < y then y else x

def isNamespace (name : String) : Bool :=
  name == "Math" || name == "JSON"

/-- The value of a call of a function in a namespace. -/
def callNamespace (space method : String) (arguments : List Value) :
    Except EvalError Value :=
  let first := (argument arguments 0).toNumber
  let numbers := arguments.map Value.toNumber
  match space, method with
  | "Math", "floor" => .ok (.number first.floor)
  | "Math", "ceil" => .ok (.number first.ceil)
  | "Math", "abs" => .ok (.number first.abs)
  | "Math", "round" => .ok (.number (roundHalfUp first))
  | "Math", "min" => .ok (.number (numbers.foldl lesser Binary.positiveInfinity))
  | "Math", "max" => .ok (.number (numbers.foldl greater (-Binary.positiveInfinity)))
  | "JSON", "stringify" => .ok (stringify (argument arguments 0))
  | space, method => .error (.ofType (.notFunction (space ++ "." ++ method)))

def callMethod (target : Value) (method : String) (arguments : List Value) :
    Except EvalError Value :=
  match target with
  | .string s => Method.call s method arguments
  | .undefined => .error (.ofType (.unreadable target method))
  | .null => .error (.ofType (.unreadable target method))
  | target => .error (.ofType (.notFunction (target.typeName ++ "." ++ method)))

/-! ## Expressions -/

/-- The name of a namespace that an expression means, unless the name is bound. -/
def namespace? (env : Environment) : Expr → Option String
  | .identifier name => if isNamespace name && !env.isBound name then some name else none
  | _ => none

/-- Whether an expression is a name without a value. -/
def isUnresolved (env : Environment) : Expr → Bool
  | .identifier name => (env.lookup? name).isNone
  | _ => false

mutual

def evaluate (env : Environment) : Expr → Except EvalError Value
  | .number value => .ok (.number value)
  | .string value => .ok (.string value)
  | .bool value => .ok (.bool value)
  | .null => .ok .null
  | .undefined => .ok .undefined
  | .identifier name =>
      match env.lookup? name with
      | some value => .ok value
      | none => .error (.reference name)
  | .unary op operand =>
      if op = .typeOf ∧ isUnresolved env operand then .ok (.string "undefined")
      else do
        let value ← evaluate env operand
        return applyUnary op value
  | .binary op left right => do
      let a ← evaluate env left
      let b ← evaluate env right
      return applyBinary op a b
  | .logical .and left right => do
      let a ← evaluate env left
      if a.toBool then evaluate env right else return a
  | .logical .or left right => do
      let a ← evaluate env left
      if a.toBool then return a else evaluate env right
  | .conditional test consequent alternate => do
      let condition ← evaluate env test
      if condition.toBool then evaluate env consequent else evaluate env alternate
  | .member object property =>
      if namespace? env object = some "Math" then .ok (mathConstant property)
      else do
        let target ← evaluate env object
        readMember target property
  | .index object index => do
      let target ← evaluate env object
      let index ← evaluate env index
      readIndex target index
  | .call (.identifier name) arguments =>
      if env.isBound name then .error (.ofType (.notFunction name))
      else do
        let values ← evaluateAll env arguments
        callFunction name values
  | .call (.member object method) arguments =>
      match namespace? env object with
      | some space => do
          let values ← evaluateAll env arguments
          callNamespace space method values
      | none => do
          let target ← evaluate env object
          let values ← evaluateAll env arguments
          callMethod target method values
  | .call _ _ => .error (.ofType (.notFunction "expression"))

def evaluateAll (env : Environment) : List Expr → Except EvalError (List Value)
  | [] => .ok []
  | e :: rest => do
      let value ← evaluate env e
      let values ← evaluateAll env rest
      return value :: values

end

/-! ## Programs -/

/-- Run the rest of a program whose last expression had a given value: the value
of the program and the environment behind it. -/
def runFrom (completion : Value) (env : Environment) :
    Program → Except EvalError Value × Environment
  | [] => (.ok completion, env)
  | .declare name none :: rest => runFrom completion (env.declare name .undefined) rest
  | .declare name (some e) :: rest =>
      match evaluate env e with
      | .ok value => runFrom completion (env.declare name value) rest
      | .error cause => (.error cause, env)
  | .expression e :: rest =>
      match evaluate env e with
      | .ok value => runFrom value env rest
      | .error cause => (.error cause, env)

def run (env : Environment) (program : Program) : Except EvalError Value × Environment :=
  runFrom .undefined env program

def evaluateCode (limit : Nat) (code : String) (scope : Scope) : Except EvalError Value := do
  let program ← parse limit code
  (run (Environment.ofScope scope) program).1

end Script
end ComponentMarkup
