import ComponentMarkup.Number.Layout
import ComponentMarkup.Text.Quoted

/-!
# Tokens of expressions

The tokens of the expression language and the names under which messages mention
them.
-/

namespace ComponentMarkup
namespace Script

inductive Token where
  | number (value : Float)
  | string (value : String)
  | identifier (name : String)
  | plus
  | minus
  | star
  | slash
  | percent
  /-- The sign `=`. -/
  | assign
  /-- The sign `==`. -/
  | equal
  /-- The sign `===`. -/
  | strictEqual
  | bang
  /-- The sign `!=`. -/
  | notEqual
  /-- The sign `!==`. -/
  | strictNotEqual
  | less
  | lessEqual
  | greater
  | greaterEqual
  /-- The sign `&&`. -/
  | andAnd
  /-- The sign `||`. -/
  | orOr
  | question
  | colon
  | semicolon
  | comma
  | dot
  | leftParen
  | rightParen
  | leftBracket
  | rightBracket
  | falseWord
  | nullWord
  | trueWord
  | typeofWord
  | undefinedWord
  | varWord
  | letWord
  | constWord
deriving DecidableEq

namespace Token

/-- The layout of numbers in messages: digits are written out for magnitudes from
`10 ^ -4` to below `10 ^ 16`, and whole numbers keep their point. -/
def numberLayout : Binary.Layout where
  positional e := -4 ≤ e && e ≤ 15
  keepsPoint := true
  marksPlus := false
  signsZero := true
  notANumber := "NaN"
  infinity := "inf"
  tie := .upper

/-- The name of a token in messages, without what it carries. -/
def kind : Token → String
  | .number _ => "Number"
  | .string _ => "String"
  | .identifier _ => "Ident"
  | .plus => "Plus"
  | .minus => "Minus"
  | .star => "Star"
  | .slash => "Slash"
  | .percent => "Percent"
  | .assign => "Eq"
  | .equal => "EqEq"
  | .strictEqual => "EqEqEq"
  | .bang => "Bang"
  | .notEqual => "BangEq"
  | .strictNotEqual => "BangEqEq"
  | .less => "Lt"
  | .lessEqual => "LtEq"
  | .greater => "Gt"
  | .greaterEqual => "GtEq"
  | .andAnd => "AmpAmp"
  | .orOr => "PipePipe"
  | .question => "Question"
  | .colon => "Colon"
  | .semicolon => "Semicolon"
  | .comma => "Comma"
  | .dot => "Dot"
  | .leftParen => "LParen"
  | .rightParen => "RParen"
  | .leftBracket => "LBracket"
  | .rightBracket => "RBracket"
  | .falseWord => "False"
  | .nullWord => "Null"
  | .trueWord => "True"
  | .typeofWord => "TypeOf"
  | .undefinedWord => "Undefined"
  | .varWord => "Var"
  | .letWord => "Let"
  | .constWord => "Const"

/-- The name of a token in messages, with what it carries. -/
def label : Token → String
  | .number value => "Number(" ++ numberLayout.render value ++ ")"
  | .string value => "String(" ++ Text.quoted value ++ ")"
  | .identifier name => "Ident(" ++ Text.quoted name ++ ")"
  | t => t.kind

/-- The token that a word stands for: a keyword or an identifier. -/
def ofWord (word : String) : Token :=
  match word with
  | "const" => .constWord
  | "false" => .falseWord
  | "let" => .letWord
  | "null" => .nullWord
  | "true" => .trueWord
  | "typeof" => .typeofWord
  | "undefined" => .undefinedWord
  | "var" => .varWord
  | name => .identifier name

end Token
end Script
end ComponentMarkup
