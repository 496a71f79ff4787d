import ComponentMarkup.Proofs.Script.Reading

/-!
# Everything that can be read is read

Where no malformed token stands behind the tokens, a reader answers all that the
relation says.
-/

namespace ComponentMarkup
namespace Script

theorem length_le_of_reads {r : Reader} {room : Nat} {ts rest : List Token} {es : List Expr}
    (h : Reads r room ts es rest) : rest.length ≤ ts.length := by
  induction h with
  | bare _ _ ih => exact ih
  | conditional _ _ _ ihTest ihConsequent ihAlternate =>
      simp only [List.length_cons] at ihTest ihConsequent
      omega
  | chain _ _ ihLeft ihRest => exact Nat.le_trans ihRest ihLeft
  | chainEnd => exact Nat.le_refl _
  | chainStep _ _ _ ihRight ihRest =>
      exact Nat.le_succ_of_le (Nat.le_trans ihRest ihRight)
  | tighter _ _ ih => exact ih
  | tightest _ _ ih => exact ih
  | unary _ _ ih => exact Nat.le_succ_of_le ih
  | noUnary _ _ ih => exact ih
  | applied _ _ ihFirst ihRest => exact Nat.le_trans ihRest ihFirst
  | appliedEnd => exact Nat.le_refl _
  | member _ ih => exact Nat.le_succ_of_le (Nat.le_succ_of_le ih)
  | index _ _ ihIndex ihRest =>
      simp only [List.length_cons] at ihIndex ⊢
      omega
  | call _ _ ihArguments ihRest => exact Nat.le_succ_of_le (Nat.le_trans ihRest ihArguments)
  | argumentsEnd => exact Nat.le_succ _
  | argument _ _ ih ihRest =>
      simp only [List.length_cons] at ih
      omega
  | lastArgument _ ih => exact Nat.le_of_succ_le ih
  | parentheses _ ih => exact Nat.le_succ_of_le (Nat.le_of_succ_le ih)
  | literal => exact Nat.le_succ _

/-- Whether a reader reads an expression from its start. -/
def Reader.startsHere : Reader → Bool
  | .chainFrom _ _ | .appliedFrom _ | .arguments _ => false
  | _ => true

/-- Whether an expression can start with a token. -/
def startsExpression : Token → Bool
  | .leftParen => true
  | t => (unaryOp? t).isSome || (literal? t).isSome

theorem startsExpression_of_unaryOp? {t : Token} {op : UnaryOp} (h : unaryOp? t = some op) :
    startsExpression t = true := by
  cases t <;> first | rfl | cases h

theorem startsExpression_of_literal? {t : Token} {e : Expr} (h : literal? t = some e) :
    startsExpression t = true := by
  cases t <;> first | rfl | cases h

theorem startsExpression_of_reads {r : Reader} {room : Nat} {ts rest : List Token}
    {es : List Expr} (h : Reads r room ts es rest) (hstart : r.startsHere = true) :
    ∃ t behind, ts = t :: behind ∧ startsExpression t = true := by
  induction h with
  | bare _ _ ih => exact ih rfl
  | conditional _ _ _ ihTest => exact ihTest rfl
  | chain _ _ ihLeft => exact ihLeft rfl
  | tighter _ _ ih => exact ih rfl
  | tightest _ _ ih => exact ih rfl
  | unary operator _ _ => exact ⟨_, _, rfl, startsExpression_of_unaryOp? operator⟩
  | noUnary _ _ ih => exact ih rfl
  | applied _ _ ihFirst => exact ihFirst rfl
  | parentheses => exact ⟨_, _, rfl, rfl⟩
  | literal token => exact ⟨_, _, rfl, startsExpression_of_literal? token⟩
  | chainEnd => cases hstart
  | chainStep => cases hstart
  | appliedEnd => cases hstart
  | member => cases hstart
  | index => cases hstart
  | call => cases hstart
  | argumentsEnd => cases hstart
  | argument => cases hstart
  | lastArgument => cases hstart

namespace Setting

variable {s : Setting}

/-- The answer of a reader.  The arguments of a call are read under any clock that
is long enough. -/
def Answers (s : Setting) : Reader → Nat → List Token → List Expr → List Token → Prop
  | .expression, room, ts, es, rest => ∃ e, es = [e] ∧ s.expression room ts = .ok (e, rest)
  | .chain p, room, ts, es, rest => ∃ e, es = [e] ∧ s.chain p room ts = .ok (e, rest)
  | .chainFrom p left, room, ts, es, rest =>
      ∃ e, es = [e] ∧ s.chainFrom p room left ts = .ok (e, rest)
  | .operand p, room, ts, es, rest => ∃ e, es = [e] ∧ s.operand p room ts = .ok (e, rest)
  | .unary, room, ts, es, rest => ∃ e, es = [e] ∧ s.unary room ts = .ok (e, rest)
  | .applied, room, ts, es, rest => ∃ e, es = [e] ∧ s.applied room ts = .ok (e, rest)
  | .appliedFrom e, room, ts, es, rest =>
      ∃ result, es = [result] ∧ s.appliedFrom room e ts = .ok (result, rest)
  | .arguments seen, room, ts, es, rest =>
      ∀ clock, ts.length ≤ clock.length → s.arguments room clock seen ts = .ok (es, rest)
  | .primary, room, ts, es, rest => ∃ e, es = [e] ∧ s.primary room ts = .ok (e, rest)

theorem goOn_of_atEnd (hend : s.atEnd = none) (ts : List Token) : s.goOn ts = .ok ts := by
  cases ts with
  | nil => simp [goOn, hend]
  | cons t rest => rfl

theorem expect_of_atEnd (hend : s.atEnd = none) (t : Token) (rest : List Token) :
    s.expect t (t :: rest) = .ok rest := by
  rw [expect, if_pos rfl, goOn_of_atEnd hend]

theorem ok_bind {α β : Type} (a : α) (f : α → Except EvalError β) :
    (Except.ok a : Except EvalError α) >>= f = f a := rfl

theorem answers_of_reads (hend : s.atEnd = none) {r : Reader} {room : Nat}
    {ts rest : List Token} {es : List Expr} (h : Reads r room ts es rest) :
    s.Answers r room ts es rest := by
  induction h with
  | bare _ next ih =>
      rcases ih with ⟨_, ⟨⟩, hread⟩
      refine ⟨_, rfl, ?_⟩
      rw [expression, hread, ok_bind]
      dsimp only
      split
      · exact absurd rfl next
      · rfl
  | conditional _ _ _ ihTest ihConsequent ihAlternate =>
      rcases ihTest with ⟨_, ⟨⟩, htest⟩
      rcases ihConsequent with ⟨_, ⟨⟩, hconsequent⟩
      rcases ihAlternate with ⟨_, ⟨⟩, halternate⟩
      refine ⟨_, rfl, ?_⟩
      rw [expression, htest, ok_bind]
      dsimp only
      rw [goOn_of_atEnd hend, ok_bind, hconsequent, ok_bind]
      dsimp only
      rw [expect_of_atEnd hend, ok_bind, halternate]
      rfl
  | chain _ _ ihLeft ihRest =>
      rcases ihLeft with ⟨_, ⟨⟩, hleft⟩
      rcases ihRest with ⟨_, ⟨⟩, hrest⟩
      refine ⟨_, rfl, ?_⟩
      rw [chain, hleft, ok_bind]
      exact hrest
  | @chainEnd p left room ts next =>
      refine ⟨_, rfl, ?_⟩
      cases ts with
      | nil => rw [chainFrom]
      | cons t ts =>
          rw [chainFrom.eq_def]
          dsimp only
          rw [next t rfl]
  | chainStep operator _ _ ihRight ihRest =>
      rcases ihRight with ⟨_, ⟨⟩, hright⟩
      rcases ihRest with ⟨_, ⟨⟩, hrest⟩
      refine ⟨_, rfl, ?_⟩
      rw [chainFrom.eq_def]
      dsimp only
      rw [operator]
      dsimp only
      rw [goOn_of_atEnd hend, ok_bind, hright, ok_bind]
      exact hrest
  | @tighter p q room ts e rest level _ ih =>
      rcases ih with ⟨_, ⟨⟩, hread⟩
      refine ⟨_, rfl, ?_⟩
      rw [operand]
      split
      · rename_i found hfound
        rw [level] at hfound
        cases hfound
        exact hread
      · rename_i hnone
        rw [level] at hnone
        cases hnone
  | tightest level _ ih =>
      rcases ih with ⟨_, ⟨⟩, hread⟩
      refine ⟨_, rfl, ?_⟩
      rw [operand]
      split
      · rename_i found hfound
        rw [level] at hfound
        cases hfound
      · exact hread
  | unary operator _ ih =>
      rcases ih with ⟨_, ⟨⟩, hread⟩
      refine ⟨_, rfl, ?_⟩
      rw [unary.eq_def]
      dsimp only
      rw [operator]
      dsimp only
      rw [goOn_of_atEnd hend, ok_bind, hread]
      rfl
  | @noUnary room ts e rest next _ ih =>
      rcases ih with ⟨_, ⟨⟩, hread⟩
      refine ⟨_, rfl, ?_⟩
      cases ts with
      | nil => rw [unary, hread]
      | cons t ts =>
          rw [unary.eq_def]
          dsimp only
          rw [next t rfl]
          exact hread
  | applied _ _ ihFirst ihRest =>
      rcases ihFirst with ⟨_, ⟨⟩, hfirst⟩
      rcases ihRest with ⟨_, ⟨⟩, hrest⟩
      refine ⟨_, rfl, ?_⟩
      rw [applied, hfirst, ok_bind]
      exact hrest
  | appliedEnd next => exact ⟨_, rfl, appliedFrom_of_stopped next⟩
  | member _ ih =>
      rcases ih with ⟨_, ⟨⟩, hread⟩
      refine ⟨_, rfl, ?_⟩
      rw [appliedFrom, goOn_of_atEnd hend, ok_bind]
      dsimp only
      rw [goOn_of_atEnd hend, ok_bind]
      exact hread
  | index _ _ ihIndex ihRest =>
      rcases ihIndex with ⟨_, ⟨⟩, hindex⟩
      rcases ihRest with ⟨_, ⟨⟩, hrest⟩
      refine ⟨_, rfl, ?_⟩
      rw [appliedFrom, goOn_of_atEnd hend, ok_bind, hindex, ok_bind]
      dsimp only
      rw [expect_of_atEnd hend, ok_bind]
      exact hrest
  | call _ _ ihArguments ihRest =>
      rcases ihRest with ⟨_, ⟨⟩, hrest⟩
      refine ⟨_, rfl, ?_⟩
      rw [appliedFrom, goOn_of_atEnd hend, ok_bind, ihArguments _ (Nat.le_succ _), ok_bind]
      exact hrest
  | argumentsEnd =>
      intro clock hclock
      rw [arguments, goOn_of_atEnd hend, ok_bind]
      rfl
  | @argument seen room ts e behind arguments rest read _ ih ihRest =>
      rcases ih with ⟨_, ⟨⟩, hread⟩
      intro clock hclock
      have hle := length_le_of_reads read
      cases clock with
      | nil =>
          simp only [List.length_cons, List.length_nil] at hle hclock
          omega
      | cons c clock =>
          rw [Setting.arguments.eq_def]
          split
          · obtain ⟨t, after, hcons, hstart⟩ := startsExpression_of_reads read rfl
            cases hcons
            cases hstart
          · rename_i hnil
            cases hnil
          · rename_i hcons
            cases hcons
            simp only [List.length_cons] at hle hclock
            rw [hread, ok_bind]
            dsimp only
            rw [goOn_of_atEnd hend, ok_bind]
            exact ihRest clock (by omega)
  | @lastArgument seen room ts e rest read ih =>
      rcases ih with ⟨_, ⟨⟩, hread⟩
      intro clock hclock
      have hle := length_le_of_reads read
      cases clock with
      | nil =>
          simp only [List.length_cons, List.length_nil] at hle hclock
          omega
      | cons c clock =>
          rw [Setting.arguments.eq_def]
          split
          · obtain ⟨t, after, hcons, hstart⟩ := startsExpression_of_reads read rfl
            cases hcons
            cases hstart
          · rename_i hnil
            cases hnil
          · rw [hread, ok_bind]
            dsimp only
            rw [expect_of_atEnd hend]
            rfl
  | parentheses _ ih =>
      rcases ih with ⟨_, ⟨⟩, hread⟩
      refine ⟨_, rfl, ?_⟩
      rw [primary, goOn_of_atEnd hend, ok_bind, hread, ok_bind]
      dsimp only
      rw [expect_of_atEnd hend]
      rfl
  | literal token =>
      refine ⟨_, rfl, ?_⟩
      rw [primary.eq_def]
      split
      · rename_i hparen
        cases hparen
        cases token
      · rename_i hnil
        cases hnil
      · rename_i found behind hcons
        cases hcons
        rw [token]
        dsimp only
        rw [goOn_of_atEnd hend]
        rfl

end Setting

end Script
end ComponentMarkup
