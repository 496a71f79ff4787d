/-!
# Programs of the expression language

A program is a list of statements: declarations of names and expressions, whose
last value is the value of the program.
-/

namespace ComponentMarkup
namespace Script

inductive UnaryOp where
  | not
  | negate
  | plus
  | typeOf
deriving DecidableEq

/-- Operators between two operands that are both evaluated. -/
inductive BinaryOp where
  | add
  | subtract
  | multiply
  | divide
  | remainder
  | equal
  | notEqual
  | strictEqual
  | strictNotEqual
  | less
  | lessEqual
  | greater
  | greaterEqual
deriving DecidableEq

/-- Operators that may leave their second operand aside. -/
inductive LogicalOp where
  | and
  | or
deriving DecidableEq

inductive Expr where
  | number (value : Float)
  | string (value : String)
  | bool (value : Bool)
  | null
  | undefined
  | identifier (name : String)
  | unary (op : UnaryOp) (operand : Expr)
  | binary (op : BinaryOp) (left right : Expr)
  | logical (op : LogicalOp) (left right : Expr)
  | conditional (test consequent alternate : Expr)
  | member (object : Expr) (property : String)
  | index (object index : Expr)
  | call (callee : Expr) (arguments : List Expr)

inductive Statement where
  /-- The declaration of a name, with its first value if one is given. -/
  | declare (name : String) (value : Option Expr)
  | expression (e : Expr)

abbrev Program := List Statement

end Script
end ComponentMarkup
