import ComponentMarkup.Proofs.Script.Reading

/-!
# Where chains stop

A chain ends in front of a token that goes on with none of the chains inside it.
-/

namespace ComponentMarkup
namespace Script

namespace Level

/-- A token is an operator of one level only. -/
theorem operator?_eq_none_of_ne {p q : Level} {t : Token} {combine : Expr → Expr → Expr}
    (h : p.operator? t = some combine) (hne : q.rank ≠ p.rank) : q.operator? t = none := by
  unfold operator? at h
  split at h <;> cases h <;> cases q <;> first | rfl | exact absurd rfl hne

theorem isPostfix_of_operator? {p : Level} {t : Token} {combine : Expr → Expr → Expr}
    (h : p.operator? t = some combine) : isPostfix t = false := by
  unfold operator? at h
  split at h <;> first | rfl | cases h

end Level

/-- No token here goes on with a chain of one of the `rank` tightest levels. -/
def Stops (rank : Nat) (ts : List Token) : Prop :=
  ∀ t ∈ ts.head?, isPostfix t = false ∧ ∀ q : Level, q.rank ≤ rank → q.operator? t = none

theorem Stops.mono {rank other : Nat} {ts : List Token} (h : Stops rank ts)
    (hle : other ≤ rank) : Stops other ts :=
  fun t ht => ⟨(h t ht).1, fun q hq => (h t ht).2 q (Nat.le_trans hq hle)⟩

theorem stops_nil (rank : Nat) : Stops rank [] := by
  intro t ht
  cases ht

theorem stops_of_not_operator {t : Token} {ts : List Token} (hgoesOn : isPostfix t = false)
    (hoperator : ∀ q : Level, q.operator? t = none) (rank : Nat) : Stops rank (t :: ts) := by
  intro next hnext
  cases hnext
  exact ⟨hgoesOn, fun q _ => hoperator q⟩

theorem stops_of_operator {p : Level} {t : Token} {combine : Expr → Expr → Expr} {rank : Nat}
    (h : p.operator? t = some combine) (hrank : rank < p.rank) (ts : List Token) :
    Stops rank (t :: ts) := by
  intro next hnext
  cases hnext
  refine ⟨Level.isPostfix_of_operator? h, fun q hq => Level.operator?_eq_none_of_ne h ?_⟩
  exact Nat.ne_of_lt (Nat.lt_of_le_of_lt hq hrank)

end Script
end ComponentMarkup
