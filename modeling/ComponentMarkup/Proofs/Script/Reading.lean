import ComponentMarkup.Script.Parse

/-!
# How expressions are read

One relation says what every reader of the expression parser can do: with some
room it reads expressions off the front of some tokens and leaves the others.
-/

namespace ComponentMarkup
namespace Script

/-!
# The relation
-/

/-- What is to be read, with what was read of it before. -/
inductive Reader where
  | expression
  | chain (p : Level)
  | chainFrom (p : Level) (left : Expr)
  | operand (p : Level)
  | unary
  | applied
  | appliedFrom (e : Expr)
  | arguments (seen : List Expr)
  | primary

/-- Whether a token goes on with an expression behind which it stands. -/
def isPostfix : Token → Bool
  | .dot | .leftBracket | .leftParen => true
  | _ => false

theorem isPostfix_iff {t : Token} :
    isPostfix t = true ↔ t = .dot ∨ t = .leftBracket ∨ t = .leftParen := by
  cases t <;> simp [isPostfix]

/-- What a reader reads with some room, and the tokens behind it. -/
inductive Reads : Reader → Nat → List Token → List Expr → List Token → Prop where
  | bare {room ts test rest} (read : Reads (.chain .or) room ts [test] rest)
      (next : rest.head? ≠ some .question) :
      Reads .expression (room + 1) ts [test] rest
  | conditional {room ts test consequent alternate behindTest behindConsequent rest}
      (readTest : Reads (.chain .or) room ts [test] (.question :: behindTest))
      (readConsequent :
        Reads .expression room behindTest [consequent] (.colon :: behindConsequent))
      (readAlternate : Reads .expression room behindConsequent [alternate] rest) :
      Reads .expression (room + 1) ts [.conditional test consequent alternate] rest
  | chain {p room ts left behind e rest} (readLeft : Reads (.operand p) room ts [left] behind)
      (readRest : Reads (.chainFrom p left) room behind [e] rest) :
      Reads (.chain p) room ts [e] rest
  | chainEnd {p left room ts} (next : ∀ t ∈ ts.head?, p.operator? t = none) :
      Reads (.chainFrom p left) room ts [left] ts
  | chainStep {p left room t combine ts right behind e rest}
      (operator : p.operator? t = some combine)
      (readRight : Reads (.operand p) room ts [right] behind)
      (readRest : Reads (.chainFrom p (combine left right)) room behind [e] rest) :
      Reads (.chainFrom p left) (room + 1) (t :: ts) [e] rest
  | tighter {p q room ts e rest} (level : p.tighter? = some q)
      (read : Reads (.chain q) room ts [e] rest) :
      Reads (.operand p) room ts [e] rest
  | tightest {p room ts e rest} (level : p.tighter? = none)
      (read : Reads .unary room ts [e] rest) :
      Reads (.operand p) room ts [e] rest
  | unary {room t op ts e rest} (operator : unaryOp? t = some op)
      (read : Reads .unary room ts [e] rest) :
      Reads .unary (room + 1) (t :: ts) [.unary op e] rest
  | noUnary {room ts e rest} (next : ∀ t ∈ ts.head?, unaryOp? t = none)
      (read : Reads .applied room ts [e] rest) :
      Reads .unary room ts [e] rest
  | applied {room ts e behind result rest} (readFirst : Reads .primary room ts [e] behind)
      (readRest : Reads (.appliedFrom e) room behind [result] rest) :
      Reads .applied room ts [result] rest
  | appliedEnd {e room ts} (next : ∀ t ∈ ts.head?, isPostfix t = false) :
      Reads (.appliedFrom e) room ts [e] ts
  | member {e property room ts result rest}
      (readRest : Reads (.appliedFrom (.member e property)) room ts [result] rest) :
      Reads (.appliedFrom e) (room + 1) (.dot :: .identifier property :: ts) [result] rest
  | index {e i room ts behind result rest}
      (readIndex : Reads .expression room ts [i] (.rightBracket :: behind))
      (readRest : Reads (.appliedFrom (.index e i)) room behind [result] rest) :
      Reads (.appliedFrom e) (room + 1) (.leftBracket :: ts) [result] rest
  | call {e arguments room ts behind result rest}
      (readArguments : Reads (.arguments []) room ts arguments behind)
      (readRest : Reads (.appliedFrom (.call e arguments)) room behind [result] rest) :
      Reads (.appliedFrom e) (room + 1) (.leftParen :: ts) [result] rest
  | argumentsEnd {seen room ts} : Reads (.arguments seen) room (.rightParen :: ts) seen.reverse ts
  | argument {seen room ts e behind arguments rest}
      (read : Reads .expression room ts [e] (.comma :: behind))
      (readRest : Reads (.arguments (e :: seen)) room behind arguments rest) :
      Reads (.arguments seen) room ts arguments rest
  | lastArgument {seen room ts e rest}
      (read : Reads .expression room ts [e] (.rightParen :: rest)) :
      Reads (.arguments seen) room ts (e :: seen).reverse rest
  | parentheses {room ts e rest} (read : Reads .expression room ts [e] (.rightParen :: rest)) :
      Reads .primary room (.leftParen :: ts) [e] rest
  | literal {room t e ts} (token : literal? t = some e) : Reads .primary room (t :: ts) [e] ts

/-!
# Readers that succeed
-/

theorem bind_eq_ok {α β : Type} {x : Except EvalError α} {f : α → Except EvalError β} {b : β} :
    x >>= f = .ok b ↔ ∃ a, x = .ok a ∧ f a = .ok b := by
  cases x with
  | error cause => simp [bind, Except.bind]
  | ok a => simp [bind, Except.bind]

namespace Setting

variable {s : Setting}

theorem goOn_eq_ok {ts rest : List Token} (h : s.goOn ts = .ok rest) : rest = ts := by
  unfold goOn at h
  split at h
  · split at h
    · cases h
      rfl
    · cases h
  · cases h
    rfl

theorem of_goOn_bind {α : Type} {ts : List Token} {f : List Token → Except EvalError α} {a : α}
    (h : s.goOn ts >>= f = .ok a) : f ts = .ok a := by
  rcases bind_eq_ok.mp h with ⟨rest, hgo, hrest⟩
  rw [goOn_eq_ok hgo] at hrest
  exact hrest

theorem of_expect_bind {α : Type} {t : Token} {ts : List Token}
    {f : List Token → Except EvalError α} {a : α} (h : s.expect t ts >>= f = .ok a) :
    ∃ rest, ts = t :: rest ∧ f rest = .ok a := by
  rcases bind_eq_ok.mp h with ⟨rest, hexpect, hrest⟩
  refine ⟨rest, ?_, hrest⟩
  unfold expect at hexpect
  split at hexpect
  · cases hexpect
  · split at hexpect
    · rename_i hfound
      rw [hfound, goOn_eq_ok hexpect]
    · cases hexpect

theorem appliedFrom_of_stopped {room : Nat} {e : Expr} {ts : List Token}
    (h : ∀ t ∈ ts.head?, isPostfix t = false) : s.appliedFrom room e ts = .ok (e, ts) := by
  rw [appliedFrom.eq_def]
  split
  all_goals first | rfl | exact absurd (h _ rfl) Bool.noConfusion

mutual

theorem reads_expression {room : Nat} {ts rest : List Token} {e : Expr}
    (h : s.expression room ts = .ok (e, rest)) : Reads .expression room ts [e] rest := by
  cases room with
  | zero =>
      rw [expression] at h
      cases h
  | succ room =>
      rw [expression] at h
      rcases bind_eq_ok.mp h with ⟨⟨test, afterTest⟩, htest, hafter⟩
      dsimp only at hafter
      split at hafter
      · rcases bind_eq_ok.mp (of_goOn_bind hafter) with
          ⟨⟨consequent, afterConsequent⟩, hconsequent, hcolon⟩
        rcases of_expect_bind hcolon with ⟨behindConsequent, rfl, hbehind⟩
        rcases bind_eq_ok.mp hbehind with ⟨⟨alternate, after⟩, halternate, hresult⟩
        cases hresult
        exact .conditional (reads_chain htest) (reads_expression hconsequent)
          (reads_expression halternate)
      · rename_i hnext
        cases hafter
        refine .bare (reads_chain htest) ?_
        intro hquestion
        rcases List.head?_eq_some_iff.mp hquestion with ⟨behind, rfl⟩
        exact hnext behind rfl
termination_by (room, 0, 0)

theorem reads_chain {p : Level} {room : Nat} {ts rest : List Token} {e : Expr}
    (h : s.chain p room ts = .ok (e, rest)) : Reads (.chain p) room ts [e] rest := by
  rw [chain] at h
  rcases bind_eq_ok.mp h with ⟨⟨left, behind⟩, hleft, hrest⟩
  exact .chain (reads_operand hleft) (reads_chainFrom hrest)
termination_by (room, 3 * p.rank + 7, 0)

theorem reads_chainFrom {p : Level} {room : Nat} {left e : Expr} {ts rest : List Token}
    (h : s.chainFrom p room left ts = .ok (e, rest)) :
    Reads (.chainFrom p left) room ts [e] rest := by
  cases ts with
  | nil =>
      rw [chainFrom] at h
      cases h
      refine .chainEnd ?_
      intro t ht
      cases ht
  | cons t ts =>
      rw [chainFrom.eq_def] at h
      dsimp only at h
      split at h
      · rename_i hnone
        cases h
        refine .chainEnd ?_
        rintro _ ⟨⟩
        exact hnone
      · rename_i combine hoperator
        cases room with
        | zero => cases h
        | succ room =>
            rcases bind_eq_ok.mp (of_goOn_bind h) with ⟨⟨right, behind⟩, hright, hrest⟩
            exact .chainStep hoperator (reads_operand hright) (reads_chainFrom hrest)
termination_by (room, 3 * p.rank + 6, 0)

theorem reads_operand {p : Level} {room : Nat} {ts rest : List Token} {e : Expr}
    (h : s.operand p room ts = .ok (e, rest)) : Reads (.operand p) room ts [e] rest := by
  rw [operand] at h
  split at h
  · rename_i q hlevel
    have := Level.rank_of_tighter? hlevel
    exact .tighter hlevel (reads_chain h)
  · rename_i hlevel
    exact .tightest hlevel (reads_unary h)
termination_by (room, 3 * p.rank + 5, 0)

theorem reads_unary {room : Nat} {ts rest : List Token} {e : Expr}
    (h : s.unary room ts = .ok (e, rest)) : Reads .unary room ts [e] rest := by
  cases ts with
  | nil =>
      rw [unary] at h
      refine .noUnary ?_ (reads_applied h)
      intro t ht
      cases ht
  | cons t ts =>
      rw [unary.eq_def] at h
      dsimp only at h
      split at h
      · rename_i hnone
        refine .noUnary ?_ (reads_applied h)
        rintro _ ⟨⟩
        exact hnone
      · rename_i op hoperator
        have hinside := of_goOn_bind h
        cases room with
        | zero => cases hinside
        | succ room =>
            rcases bind_eq_ok.mp hinside with ⟨⟨inner, behind⟩, hinner, hresult⟩
            cases hresult
            exact .unary hoperator (reads_unary hinner)
termination_by (room, 4, 0)

theorem reads_applied {room : Nat} {ts rest : List Token} {e : Expr}
    (h : s.applied room ts = .ok (e, rest)) : Reads .applied room ts [e] rest := by
  rw [applied] at h
  rcases bind_eq_ok.mp h with ⟨⟨first, behind⟩, hfirst, hrest⟩
  exact .applied (reads_primary hfirst) (reads_appliedFrom hrest)
termination_by (room, 3, 0)

theorem reads_appliedFrom {room : Nat} {e result : Expr} {ts rest : List Token}
    (h : s.appliedFrom room e ts = .ok (result, rest)) :
    Reads (.appliedFrom e) room ts [result] rest := by
  rw [appliedFrom.eq_def] at h
  split at h
  · cases h
  · have hname := of_goOn_bind h
    split at hname
    · exact .member (reads_appliedFrom (of_goOn_bind hname))
    · cases hname
  · cases h
  · rcases bind_eq_ok.mp (of_goOn_bind h) with ⟨⟨i, afterIndex⟩, hindex, hbracket⟩
    rcases of_expect_bind hbracket with ⟨behind, rfl, hrest⟩
    exact .index (reads_expression hindex) (reads_appliedFrom hrest)
  · cases h
  · rcases bind_eq_ok.mp (of_goOn_bind h) with ⟨⟨found, behind⟩, harguments, hrest⟩
    exact .call (reads_arguments harguments) (reads_appliedFrom hrest)
  · rename_i hlastDot hdot hlastBracket hbracket hlastParen hparen
    cases h
    refine .appliedEnd fun t ht => ?_
    rcases List.head?_eq_some_iff.mp ht with ⟨behind, rfl⟩
    rw [Bool.eq_false_iff]
    intro hgoesOn
    rcases isPostfix_iff.mp hgoesOn with rfl | rfl | rfl
    · cases room with
      | zero => exact hlastDot behind rfl rfl
      | succ room => exact hdot behind room rfl rfl
    · cases room with
      | zero => exact hlastBracket behind rfl rfl
      | succ room => exact hbracket behind room rfl rfl
    · cases room with
      | zero => exact hlastParen behind rfl rfl
      | succ room => exact hparen behind room rfl rfl
termination_by (room, 2, 0)

theorem reads_arguments {room : Nat} {clock : List Token} {seen found : List Expr}
    {ts rest : List Token} (h : s.arguments room clock seen ts = .ok (found, rest)) :
    Reads (.arguments seen) room ts found rest := by
  rw [arguments.eq_def] at h
  split at h
  · cases of_goOn_bind h
    exact .argumentsEnd
  · cases h
  · rcases bind_eq_ok.mp h with ⟨⟨e, behind⟩, hread, hafter⟩
    dsimp only at hafter
    split at hafter
    · exact .argument (reads_expression hread) (reads_arguments (of_goOn_bind hafter))
    · rcases of_expect_bind hafter with ⟨behind, rfl, hresult⟩
      cases hresult
      exact .lastArgument (reads_expression hread)
termination_by (room, 1, clock.length)

theorem reads_primary {room : Nat} {ts rest : List Token} {e : Expr}
    (h : s.primary room ts = .ok (e, rest)) : Reads .primary room ts [e] rest := by
  rw [primary.eq_def] at h
  split at h
  · rcases bind_eq_ok.mp (of_goOn_bind h) with ⟨⟨inner, afterInner⟩, hinner, hparen⟩
    rcases of_expect_bind hparen with ⟨behind, rfl, hresult⟩
    cases hresult
    exact .parentheses (reads_expression hinner)
  · cases h
  · split at h
    · cases h
    · rename_i hliteral
      cases of_goOn_bind h
      exact .literal hliteral
termination_by (room, 1, 0)

end

end Setting

end Script
end ComponentMarkup
