import Mathlib.Tactic.Ring
import ComponentMarkup.Proofs.Script.Reading

/-!
# The height of expressions

With some room a reader reads expressions up to a certain height only.  Every
operator of a chain takes room from the operators behind it in the same chain, but
the whole chain then stands as the first operand of a looser one that starts with
the full room again.  There are seven kinds of chains, so each level of nesting
adds seven times its room to the height.
-/

namespace ComponentMarkup
namespace Script

/-!
# Nodes below each other
-/

mutual

/-- The number of nodes on the longest way from the root to a leaf. -/
def Expr.height : Expr → Nat
  | .number _ => 1
  | .string _ => 1
  | .bool _ => 1
  | .null => 1
  | .undefined => 1
  | .identifier _ => 1
  | .unary _ e => e.height + 1
  | .binary _ left right => max left.height right.height + 1
  | .logical _ left right => max left.height right.height + 1
  | .conditional test consequent alternate =>
      max test.height (max consequent.height alternate.height) + 1
  | .member object _ => object.height + 1
  | .index object i => max object.height i.height + 1
  | .call callee arguments => max callee.height (heightOfAll arguments) + 1

def heightOfAll : List Expr → Nat
  | [] => 0
  | e :: rest => max e.height (heightOfAll rest)

end

@[simp] theorem heightOfAll_singleton (e : Expr) : heightOfAll [e] = e.height := by
  simp [heightOfAll]

theorem Expr.height_pos (e : Expr) : 0 < e.height := by
  cases e <;> simp [height]

theorem heightOfAll_le {es : List Expr} {bound : Nat} :
    heightOfAll es ≤ bound ↔ ∀ e ∈ es, e.height ≤ bound := by
  induction es with
  | nil => simp [heightOfAll]
  | cons e rest ih => rw [heightOfAll, Nat.max_le, ih, List.forall_mem_cons]

theorem heightOfAll_reverse_le (es : List Expr) : heightOfAll es.reverse ≤ heightOfAll es := by
  rw [heightOfAll_le]
  intro e he
  exact heightOfAll_le.mp (Nat.le_refl _) e (List.mem_reverse.mp he)

theorem height_operator {p : Level} {t : Token} {combine : Expr → Expr → Expr}
    (h : p.operator? t = some combine) (left right : Expr) :
    (combine left right).height = max left.height right.height + 1 := by
  unfold Level.operator? at h
  split at h <;> cases h <;> rfl

theorem height_literal {t : Token} {e : Expr} (h : literal? t = some e) : e.height = 1 := by
  unfold literal? at h
  split at h <;> cases h <;> rfl

/-!
# What a reader can read
-/

/-- The height up to which expressions are read with some room. -/
def deepest (room : Nat) : Nat :=
  room * (7 * room - 5) / 2

theorem deepest_succ (room : Nat) : deepest (room + 1) = deepest room + 7 * room + 1 := by
  have hbefore : room * (7 * room - 5) + 5 * room = 7 * (room * room) := by
    cases room with
    | zero => rfl
    | succ room =>
        rw [Nat.mul_comm 5, ← Nat.mul_add, Nat.sub_add_cancel (by omega)]
        ring
  have hafter : (room + 1) * (7 * (room + 1) - 5) + 5 * (room + 1) =
      7 * ((room + 1) * (room + 1)) := by
    rw [Nat.mul_comm 5, ← Nat.mul_add, Nat.sub_add_cancel (by omega)]
    ring
  have hsquare : (room + 1) * (room + 1) = room * room + 2 * room + 1 := by ring
  unfold deepest
  omega

namespace Level

theorem rank_of_tighter?_eq_some {p q : Level} (h : p.tighter? = some q) :
    p.rank = q.rank + 1 := by
  cases p <;> cases h <;> rfl

theorem rank_of_tighter?_eq_none {p : Level} (h : p.tighter? = none) : p.rank = 1 := by
  cases p <;> first | rfl | cases h

end Level

/-- The height up to which a reader reads with some room. -/
def Reader.bound (room : Nat) : Reader → Nat
  | .expression => deepest room
  | .chain p => max 1 (deepest room) + (p.rank * room + room)
  | .chainFrom p left => max left.height (max 1 (deepest room) + p.rank * room) + room
  | .operand p => max 1 (deepest room) + p.rank * room
  | .unary => max 1 (deepest room) + room
  | .applied => max 1 (deepest room) + room
  | .appliedFrom e => max e.height (deepest room) + room
  | .arguments seen => max (heightOfAll seen) (deepest room)
  | .primary => max 1 (deepest room)

theorem heightOfAll_le_bound {r : Reader} {room : Nat} {ts rest : List Token} {es : List Expr}
    (h : Reads r room ts es rest) : heightOfAll es ≤ r.bound room := by
  induction h with
  | @bare room _ _ _ _ _ ih =>
      have hdeeper := deepest_succ room
      simp only [heightOfAll_singleton, Reader.bound, Level.rank] at ih ⊢
      omega
  | @conditional room ts test consequent alternate _ _ _ _ _ _ ihTest ihConsequent ihAlternate =>
      have hdeeper := deepest_succ room
      have hleaf := consequent.height_pos
      simp only [heightOfAll_singleton, Reader.bound, Level.rank, Expr.height]
        at ihTest ihConsequent ihAlternate ⊢
      omega
  | chain _ _ ihLeft ihRest =>
      simp only [heightOfAll_singleton, Reader.bound] at ihLeft ihRest ⊢
      omega
  | chainEnd =>
      simp only [heightOfAll_singleton, Reader.bound]
      omega
  | @chainStep p left room _ _ _ right _ _ _ operator _ _ ihRight ihRest =>
      have hdeeper := deepest_succ room
      have hheight := height_operator operator left right
      have hroom : p.rank * (room + 1) = p.rank * room + p.rank := Nat.mul_succ p.rank room
      simp only [heightOfAll_singleton, Reader.bound, hheight] at ihRight ihRest ⊢
      omega
  | @tighter p q room _ _ _ level _ ih =>
      have hrank := Level.rank_of_tighter?_eq_some level
      have hroom : (q.rank + 1) * room = q.rank * room + room := Nat.succ_mul q.rank room
      simp only [heightOfAll_singleton, Reader.bound, hrank] at ih ⊢
      omega
  | @tightest p room _ _ _ level _ ih =>
      have hrank := Level.rank_of_tighter?_eq_none level
      simp only [heightOfAll_singleton, Reader.bound, hrank] at ih ⊢
      omega
  | @unary room _ _ _ _ _ _ _ ih =>
      have hdeeper := deepest_succ room
      simp only [heightOfAll_singleton, Reader.bound, Expr.height] at ih ⊢
      omega
  | noUnary _ _ ih => exact ih
  | applied _ _ ihFirst ihRest =>
      simp only [heightOfAll_singleton, Reader.bound] at ihFirst ihRest ⊢
      omega
  | appliedEnd =>
      simp only [heightOfAll_singleton, Reader.bound]
      omega
  | @member e property room _ _ _ _ ih =>
      have hdeeper := deepest_succ room
      simp only [heightOfAll_singleton, Reader.bound, Expr.height] at ih ⊢
      omega
  | @index e i room _ _ _ _ _ _ ihIndex ihRest =>
      have hdeeper := deepest_succ room
      simp only [heightOfAll_singleton, Reader.bound, Expr.height] at ihIndex ihRest ⊢
      omega
  | @call e arguments room _ _ _ _ _ _ ihArguments ihRest =>
      have hdeeper := deepest_succ room
      simp only [Reader.bound, heightOfAll, Expr.height] at ihArguments ihRest ⊢
      omega
  | argumentsEnd => exact Nat.le_trans (heightOfAll_reverse_le _) (Nat.le_max_left _ _)
  | argument _ _ ih ihRest =>
      simp only [Reader.bound, heightOfAll] at ih ihRest ⊢
      omega
  | @lastArgument seen room _ e _ _ ih =>
      have hreverse := heightOfAll_reverse_le (e :: seen)
      simp only [heightOfAll_singleton, Reader.bound] at ih ⊢
      rw [heightOfAll] at hreverse
      omega
  | parentheses _ ih => exact Nat.le_trans ih (Nat.le_max_right _ _)
  | literal token =>
      rw [heightOfAll_singleton, height_literal token]
      exact Nat.le_max_left _ _

end Script
end ComponentMarkup
