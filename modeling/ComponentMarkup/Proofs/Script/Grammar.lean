import ComponentMarkup.Script.Parse

/-!
# The grammar of expressions

A grammar says which tokens are a program and which program they are.  Operators
of one level are grouped from the left, and parentheses leave no trace in the
expression.
-/

namespace ComponentMarkup
namespace Script

/-!
# Signs
-/

/-- The binary operators of a level with their signs. -/
inductive Combines : Level → Token → (Expr → Expr → Expr) → Prop where
  | or : Combines .or .orOr (.logical .or)
  | and : Combines .and .andAnd (.logical .and)
  | equal : Combines .equality .equal (.binary .equal)
  | notEqual : Combines .equality .notEqual (.binary .notEqual)
  | strictEqual : Combines .equality .strictEqual (.binary .strictEqual)
  | strictNotEqual : Combines .equality .strictNotEqual (.binary .strictNotEqual)
  | less : Combines .relation .less (.binary .less)
  | lessEqual : Combines .relation .lessEqual (.binary .lessEqual)
  | greater : Combines .relation .greater (.binary .greater)
  | greaterEqual : Combines .relation .greaterEqual (.binary .greaterEqual)
  | add : Combines .sum .plus (.binary .add)
  | subtract : Combines .sum .minus (.binary .subtract)
  | multiply : Combines .product .star (.binary .multiply)
  | divide : Combines .product .slash (.binary .divide)
  | remainder : Combines .product .percent (.binary .remainder)

/-- The operators in front of an operand with their signs. -/
inductive Prefixes : Token → UnaryOp → Prop where
  | not : Prefixes .bang .not
  | negate : Prefixes .minus .negate
  | plus : Prefixes .plus .plus
  | typeOf : Prefixes .typeofWord .typeOf

/-- The tokens that are expressions by themselves. -/
inductive Denotes : Token → Expr → Prop where
  | number (value : Float) : Denotes (.number value) (.number value)
  | string (value : String) : Denotes (.string value) (.string value)
  | identifier (name : String) : Denotes (.identifier name) (.identifier name)
  | trueWord : Denotes .trueWord (.bool true)
  | falseWord : Denotes .falseWord (.bool false)
  | nullWord : Denotes .nullWord .null
  | undefinedWord : Denotes .undefinedWord .undefined

/-- The words that declare a name. -/
inductive Declares : Token → Prop where
  | varWord : Declares .varWord
  | letWord : Declares .letWord
  | constWord : Declares .constWord

theorem operator?_eq_some {p : Level} {t : Token} {combine : Expr → Expr → Expr} :
    p.operator? t = some combine ↔ Combines p t combine := by
  constructor
  · intro h
    unfold Level.operator? at h
    split at h <;> cases h <;> constructor
  · intro h
    cases h <;> rfl

theorem unaryOp?_eq_some {t : Token} {op : UnaryOp} : unaryOp? t = some op ↔ Prefixes t op := by
  constructor
  · intro h
    unfold unaryOp? at h
    split at h <;> cases h <;> constructor
  · intro h
    cases h <;> rfl

theorem literal?_eq_some {t : Token} {e : Expr} : literal? t = some e ↔ Denotes t e := by
  constructor
  · intro h
    unfold literal? at h
    split at h <;> cases h <;> constructor
  · intro h
    cases h <;> rfl

theorem startsDeclaration_iff {t : Token} :
    Setting.startsDeclaration t = true ↔ Declares t := by
  constructor
  · intro h
    unfold Setting.startsDeclaration at h
    split at h <;> first | constructor | cases h
  · intro h
    cases h <;> rfl

/-!
# Phrases
-/

inductive Phrase where
  | expression
  /-- Operands with the operators of a level between them. -/
  | chain (p : Level)
  | unary
  | applied
  | primary
  | arguments
  /-- Expressions with commas between them. -/
  | row

/-- What stands between the operators of a level. -/
def Level.operandPhrase : Level → Phrase
  | .or => .chain .and
  | .and => .chain .equality
  | .equality => .chain .relation
  | .relation => .chain .sum
  | .sum => .chain .product
  | .product => .unary

theorem operandPhrase_of_tighter? {p q : Level} (h : p.tighter? = some q) :
    p.operandPhrase = .chain q := by
  cases p <;> cases h <;> rfl

theorem operandPhrase_of_tightest {p : Level} (h : p.tighter? = none) :
    p.operandPhrase = .unary := by
  cases p <;> first | rfl | cases h

/-- The tokens of a phrase and what they mean: one expression, or any number of
them for a row and for arguments. -/
inductive Derives : Phrase → List Token → List Expr → Prop where
  | bare {ts e} (phrase : Derives (.chain .or) ts [e]) : Derives .expression ts [e]
  | conditional {ts us vs test consequent alternate}
      (testPhrase : Derives (.chain .or) ts [test])
      (consequentPhrase : Derives .expression us [consequent])
      (alternatePhrase : Derives .expression vs [alternate]) :
      Derives .expression (ts ++ .question :: (us ++ .colon :: vs))
        [.conditional test consequent alternate]
  | operand {p ts e} (phrase : Derives p.operandPhrase ts [e]) : Derives (.chain p) ts [e]
  | operation {p t combine ts us left right} (sign : Combines p t combine)
      (leftPhrase : Derives (.chain p) ts [left])
      (rightPhrase : Derives p.operandPhrase us [right]) :
      Derives (.chain p) (ts ++ t :: us) [combine left right]
  | unary {t op ts e} (sign : Prefixes t op) (phrase : Derives .unary ts [e]) :
      Derives .unary (t :: ts) [.unary op e]
  | noUnary {ts e} (phrase : Derives .applied ts [e]) : Derives .unary ts [e]
  | noApplied {ts e} (phrase : Derives .primary ts [e]) : Derives .applied ts [e]
  | member {property ts e} (phrase : Derives .applied ts [e]) :
      Derives .applied (ts ++ [.dot, .identifier property]) [.member e property]
  | index {ts us e i} (phrase : Derives .applied ts [e])
      (indexPhrase : Derives .expression us [i]) :
      Derives .applied (ts ++ .leftBracket :: (us ++ [.rightBracket])) [.index e i]
  | call {ts us e arguments} (phrase : Derives .applied ts [e])
      (argumentsPhrase : Derives .arguments us arguments) :
      Derives .applied (ts ++ .leftParen :: (us ++ [.rightParen])) [.call e arguments]
  | literal {t e} (token : Denotes t e) : Derives .primary [t] [e]
  | parentheses {ts e} (phrase : Derives .expression ts [e]) :
      Derives .primary (.leftParen :: (ts ++ [.rightParen])) [e]
  | noArguments : Derives .arguments [] []
  | arguments {ts es} (phrase : Derives .row ts es) : Derives .arguments ts es
  | argumentsComma {ts es} (phrase : Derives .row ts es) :
      Derives .arguments (ts ++ [.comma]) es
  | lastOfRow {ts e} (phrase : Derives .expression ts [e]) : Derives .row ts [e]
  | row {ts us e es} (firstPhrase : Derives .expression ts [e]) (phrase : Derives .row us es) :
      Derives .row (ts ++ .comma :: us) (e :: es)

/-!
# Programs
-/

inductive DerivesStatement : List Token → Statement → Prop where
  | declaration {t} (name : String) (word : Declares t) :
      DerivesStatement [t, .identifier name] (.declare name none)
  | initialized {t ts e} (name : String) (word : Declares t)
      (value : Derives .expression ts [e]) :
      DerivesStatement (t :: .identifier name :: .assign :: ts) (.declare name (some e))
  | expression {ts e} (phrase : Derives .expression ts [e]) :
      DerivesStatement ts (.expression e)

/-- Statements with semicolons between them.  More semicolons may stand in front of
every statement and behind the last one. -/
inductive DerivesProgram : List Token → Program → Prop where
  | nil : DerivesProgram [] []
  | semicolon {ts program} (rest : DerivesProgram ts program) :
      DerivesProgram (.semicolon :: ts) program
  | last {ts found} (statement : DerivesStatement ts found) : DerivesProgram ts [found]
  | statement {ts us found program} (first : DerivesStatement ts found)
      (rest : DerivesProgram us program) :
      DerivesProgram (ts ++ .semicolon :: us) (found :: program)

end Script
end ComponentMarkup
