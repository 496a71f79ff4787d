import ComponentMarkup.Script.Scan
import ComponentMarkup.Script.Syntax

/-!
# From tokens to programs

The binary operators stand on six levels of precedence, and the operators of one
level are grouped from the left.  Tighter than all of them are the operators in
front of an operand, and tightest the members, indices and calls behind one.

Every reader has a room: how many levels of nesting are left.  An expression
needs one level, an operand behind a prefix operator one more, and each operator
of a chain one for the rest of the chain.  A chain that is complete gives its
levels back.
-/

namespace ComponentMarkup
namespace Script

/-- The deepest nesting of expressions, unless another is set. -/
def defaultDepthLimit : Nat :=
  256

/-- The levels of precedence of the binary operators, loosest first. -/
inductive Level where
  | or
  | and
  | equality
  | relation
  | sum
  | product
deriving DecidableEq

namespace Level

def tighter? : Level → Option Level
  | .or => some .and
  | .and => some .equality
  | .equality => some .relation
  | .relation => some .sum
  | .sum => some .product
  | .product => none

/-- How many levels are tighter, counting the level itself. -/
def rank : Level → Nat
  | .or => 6
  | .and => 5
  | .equality => 4
  | .relation => 3
  | .sum => 2
  | .product => 1

/-- The expression that an operator of a level forms. -/
def operator? : Level → Token → Option (Expr → Expr → Expr)
  | .or, .orOr => some (.logical .or)
  | .and, .andAnd => some (.logical .and)
  | .equality, .equal => some (.binary .equal)
  | .equality, .notEqual => some (.binary .notEqual)
  | .equality, .strictEqual => some (.binary .strictEqual)
  | .equality, .strictNotEqual => some (.binary .strictNotEqual)
  | .relation, .less => some (.binary .less)
  | .relation, .lessEqual => some (.binary .lessEqual)
  | .relation, .greater => some (.binary .greater)
  | .relation, .greaterEqual => some (.binary .greaterEqual)
  | .sum, .plus => some (.binary .add)
  | .sum, .minus => some (.binary .subtract)
  | .product, .star => some (.binary .multiply)
  | .product, .slash => some (.binary .divide)
  | .product, .percent => some (.binary .remainder)
  | _, _ => none

theorem rank_of_tighter? {p q : Level} (h : p.tighter? = some q) : q.rank < p.rank := by
  cases p <;> simp only [tighter?, Option.some.injEq, reduceCtorEq] at h <;> subst h <;> decide

end Level

/-- The operator that a token is in front of an operand. -/
def unaryOp? : Token → Option UnaryOp
  | .bang => some .not
  | .minus => some .negate
  | .plus => some .plus
  | .typeofWord => some .typeOf
  | _ => none

def literal? : Token → Option Expr
  | .number value => some (.number value)
  | .string value => some (.string value)
  | .identifier name => some (.identifier name)
  | .trueWord => some (.bool true)
  | .falseWord => some (.bool false)
  | .nullWord => some .null
  | .undefinedWord => some .undefined
  | _ => none

/-- Some code as it is parsed: where the tokens end, either the code ends or a
malformed token stands there. -/
structure Setting where
  /-- The limit that is reported when the room is used up. -/
  limit : Nat
  /-- The error behind the last token. -/
  atEnd : Option SyntaxError

/-- The error of finding something else than what must come next. -/
def unexpected (expected : Expectation) (ts : List Token) : EvalError :=
  .ofSyntax (.unexpected expected ts.head?)

namespace Setting

variable (s : Setting)

/-- Go on with the tokens behind one that was read.  A malformed token is an
error as soon as it comes next. -/
def goOn : List Token → Except EvalError (List Token)
  | [] =>
      match s.atEnd with
      | none => .ok []
      | some cause => .error (.ofSyntax cause)
  | ts => .ok ts

def expect (t : Token) : List Token → Except EvalError (List Token)
  | [] => .error (unexpected (.token t) [])
  | found :: rest =>
      if found = t then s.goOn rest else .error (unexpected (.token t) (found :: rest))

mutual

/-- Read an expression: operators, and a condition with its two branches. -/
def expression (room : Nat) (ts : List Token) : Except EvalError (Expr × List Token) :=
  match room with
  | 0 => .error (.tooDeep s.limit)
  | room + 1 => do
      let (test, afterTest) ← chain .or room ts
      match afterTest with
      | .question :: rest =>
          let rest ← s.goOn rest
          let (consequent, afterConsequent) ← expression room rest
          let rest ← s.expect .colon afterConsequent
          let (alternate, rest) ← expression room rest
          return (.conditional test consequent alternate, rest)
      | _ => return (test, afterTest)
termination_by (room, 0, 0)

def chain (p : Level) (room : Nat) (ts : List Token) :
    Except EvalError (Expr × List Token) := do
  let (left, rest) ← operand p room ts
  chainFrom p room left rest
termination_by (room, 3 * p.rank + 7, 0)

/-- Read the rest of a chain behind its first operand. -/
def chainFrom (p : Level) (room : Nat) (left : Expr) (ts : List Token) :
    Except EvalError (Expr × List Token) :=
  match ts with
  | [] => .ok (left, [])
  | t :: rest =>
      match p.operator? t with
      | none => .ok (left, t :: rest)
      | some combine =>
          match room with
          | 0 => .error (.tooDeep s.limit)
          | room + 1 => do
              let rest ← s.goOn rest
              let (right, rest) ← operand p room rest
              chainFrom p room (combine left right) rest
termination_by (room, 3 * p.rank + 6, 0)

/-- Read an operand of a level: a chain of the next tighter level. -/
def operand (p : Level) (room : Nat) (ts : List Token) :
    Except EvalError (Expr × List Token) :=
  match _h : p.tighter? with
  | some q => chain q room ts
  | none => unary room ts
termination_by (room, 3 * p.rank + 5, 0)
decreasing_by
  · have := Level.rank_of_tighter? _h
    apply Prod.Lex.right
    apply Prod.Lex.left
    omega
  · apply Prod.Lex.right
    apply Prod.Lex.left
    omega

/-- Read the operators in front of an operand, and the operand. -/
def unary (room : Nat) (ts : List Token) : Except EvalError (Expr × List Token) :=
  match ts with
  | [] => applied room []
  | t :: rest =>
      match unaryOp? t with
      | none => applied room (t :: rest)
      | some op => do
          let rest ← s.goOn rest
          match room with
          | 0 => .error (.tooDeep s.limit)
          | room + 1 =>
              let (e, rest) ← unary room rest
              return (.unary op e, rest)
termination_by (room, 4, 0)

/-- Read an operand with the members, indices and calls behind it. -/
def applied (room : Nat) (ts : List Token) : Except EvalError (Expr × List Token) := do
  let (e, rest) ← primary room ts
  appliedFrom room e rest
termination_by (room, 3, 0)

/-- Read the members, indices and calls behind an expression. -/
def appliedFrom (room : Nat) (e : Expr) (ts : List Token) :
    Except EvalError (Expr × List Token) :=
  match ts, room with
  | .dot :: _, 0 => .error (.tooDeep s.limit)
  | .dot :: rest, room + 1 => do
      match ← s.goOn rest with
      | .identifier property :: rest =>
          let rest ← s.goOn rest
          appliedFrom room (.member e property) rest
      | rest => .error (unexpected .propertyName rest)
  | .leftBracket :: _, 0 => .error (.tooDeep s.limit)
  | .leftBracket :: rest, room + 1 => do
      let rest ← s.goOn rest
      let (i, rest) ← expression room rest
      let rest ← s.expect .rightBracket rest
      appliedFrom room (.index e i) rest
  | .leftParen :: _, 0 => .error (.tooDeep s.limit)
  | .leftParen :: rest, room + 1 => do
      let (arguments, rest) ← arguments room (.leftParen :: rest) [] (← s.goOn rest)
      appliedFrom room (.call e arguments) rest
  | ts, _ => .ok (e, ts)
termination_by (room, 2, 0)

/-- Read the arguments of a call behind its parenthesis, with the arguments read
so far, last first.  Every argument but the last ends in a comma, and one comma
may stand behind the last.  The list `clock` is longer than the tokens that are
left: an argument takes at least one of them, and where none are left one more
argument is still asked for. -/
def arguments (room : Nat) (clock : List Token) (seen : List Expr) (ts : List Token) :
    Except EvalError (List Expr × List Token) :=
  match ts, clock with
  | .rightParen :: rest, _ => do
      let rest ← s.goOn rest
      return (seen.reverse, rest)
  | ts, [] => .error (unexpected .expression ts)
  | ts, _ :: clock => do
      let (e, rest) ← expression room ts
      match rest with
      | .comma :: rest =>
          let rest ← s.goOn rest
          arguments room clock (e :: seen) rest
      | rest =>
          let rest ← s.expect .rightParen rest
          return ((e :: seen).reverse, rest)
termination_by (room, 1, clock.length)

/-- Read a literal, a name or an expression in parentheses. -/
def primary (room : Nat) (ts : List Token) : Except EvalError (Expr × List Token) :=
  match ts with
  | .leftParen :: rest => do
      let rest ← s.goOn rest
      let (e, rest) ← expression room rest
      let rest ← s.expect .rightParen rest
      return (e, rest)
  | [] => .error (unexpected .expression [])
  | t :: rest =>
      match literal? t with
      | none => .error (unexpected .expression (t :: rest))
      | some e => do
          let rest ← s.goOn rest
          return (e, rest)
termination_by (room, 1, 0)

end

def startsDeclaration : Token → Bool
  | .varWord => true
  | .letWord => true
  | .constWord => true
  | _ => false

def declaration (ts : List Token) : Except EvalError (Statement × List Token) := do
  match ← s.goOn ts with
  | .identifier name :: rest =>
      match ← s.goOn rest with
      | .assign :: rest =>
          let rest ← s.goOn rest
          let (e, rest) ← s.expression s.limit rest
          return (.declare name (some e), rest)
      | rest => return (.declare name none, rest)
  | rest => .error (unexpected .identifier rest)

def statement (ts : List Token) : Except EvalError (Statement × List Token) :=
  match ts with
  | [] => do
      let (e, rest) ← s.expression s.limit []
      return (.expression e, rest)
  | t :: rest =>
      if startsDeclaration t then s.declaration rest
      else do
        let (e, rest) ← s.expression s.limit (t :: rest)
        return (.expression e, rest)

/-- Read statements, with those read so far, last first.  Semicolons separate
statements and may be repeated.  The list `clock` is at least as long as the
tokens that are left. -/
def statements (clock : List Token) (seen : List Statement) (ts : List Token) :
    Except EvalError Program :=
  match ts, clock with
  | [], _ => .ok seen.reverse
  | ts, [] => .error (unexpected .semicolon ts)
  | .semicolon :: rest, _ :: clock => do
      let rest ← s.goOn rest
      statements clock seen rest
  | ts, _ :: clock => do
      let (found, rest) ← s.statement ts
      match rest with
      | [] => return (found :: seen).reverse
      | .semicolon :: rest =>
          let rest ← s.goOn rest
          statements clock (found :: seen) rest
      | rest => .error (unexpected .semicolon rest)

end Setting

/-- The program of some code, with expressions nested at most `limit` deep. -/
def parse (limit : Nat) (code : String) : Except EvalError Program := do
  let (ts, atEnd) := tokens code
  let s : Setting := ⟨limit, atEnd⟩
  let ts ← s.goOn ts
  s.statements ts [] ts

end Script
end ComponentMarkup
