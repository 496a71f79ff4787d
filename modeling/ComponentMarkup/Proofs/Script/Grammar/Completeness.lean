import ComponentMarkup.Proofs.Script.Answering
import ComponentMarkup.Proofs.Script.Grammar
import ComponentMarkup.Proofs.Script.Stopping

/-!
# What is grammatical is read

Where the room is as large as the number of tokens, a phrase is read off the front
of any tokens that do not go on with it.  A chain is derived from the left and read
from the left, so what is said of it leaves open what follows: whoever reads the
rest of the chain behind its expression reads all of it.
-/

namespace ComponentMarkup
namespace Script

/-- Whether an expression can end in front of some tokens. -/
def Ends (rest : List Token) : Prop :=
  Stops 6 rest ∧ rest.head? ≠ some .question

theorem ends_nil : Ends [] :=
  ⟨stops_nil 6, by simp⟩

/-- Whether a token stands behind expressions only. -/
def isClosing : Token → Bool
  | .colon | .comma | .semicolon | .rightParen | .rightBracket => true
  | _ => false

theorem operator?_eq_none_of_isClosing {t : Token} (h : isClosing t = true) (p : Level) :
    p.operator? t = none := by
  unfold isClosing at h
  split at h <;> first | (cases p <;> rfl) | cases h

theorem ends_of_isClosing {t : Token} (h : isClosing t = true) (ts : List Token) :
    Ends (t :: ts) := by
  refine ⟨stops_of_not_operator ?_ (operator?_eq_none_of_isClosing h) 6, ?_⟩
  · cases t <;> first | rfl | cases h
  · rintro ⟨⟩
    cases h

/-- A chain whose first tokens form an expression is read when the rest of the chain
is read behind them, with less room by the number of steps in these tokens. -/
def Grows (whole : Reader) (more : Expr → Reader) (fits : List Token → Prop) (ts : List Token)
    (es : List Expr) : Prop :=
  ∃ e steps, es = [e] ∧ steps < ts.length ∧
    ∀ room rest result after, ts.length ≤ room + steps + 1 → fits rest →
      Reads (more e) room rest [result] after →
        Reads whole (room + steps) (ts ++ rest) [result] after

/-- How a phrase is read. -/
def Phrase.IsRead : Phrase → List Token → List Expr → Prop
  | .expression, ts, es =>
      ∀ room rest, ts.length ≤ room → Ends rest → Reads .expression room (ts ++ rest) es rest
  | .chain p, ts, es => Grows (.chain p) (.chainFrom p) (Stops (p.rank - 1)) ts es
  | .unary, ts, es =>
      0 < ts.length ∧
        ∀ room rest, ts.length ≤ room + 1 → Stops 0 rest → Reads .unary room (ts ++ rest) es rest
  | .applied, ts, es =>
      (∃ t more, ts = t :: more ∧ unaryOp? t = none) ∧
        Grows .applied .appliedFrom (fun _ => True) ts es
  | .primary, ts, es =>
      (∃ t more, ts = t :: more ∧ unaryOp? t = none) ∧
        ∀ room rest, ts.length ≤ room + 1 → Reads .primary room (ts ++ rest) es rest
  | .arguments, ts, es =>
      ∀ room seen rest, ts.length ≤ room →
        Reads (.arguments seen) room (ts ++ .rightParen :: rest) (seen.reverse ++ es) rest
  | .row, ts, es =>
      ∀ room seen rest, ts.length ≤ room →
        Reads (.arguments seen) room (ts ++ .rightParen :: rest) (seen.reverse ++ es) rest ∧
          Reads (.arguments seen) room (ts ++ .comma :: .rightParen :: rest)
            (seen.reverse ++ es) rest

/-!
# Chains
-/

namespace Grows

variable {whole : Reader} {more : Expr → Reader} {fits : List Token → Prop} {ts us : List Token}
  {e result : Expr}

theorem length_pos {es : List Expr} (h : Grows whole more fits ts es) : 0 < ts.length := by
  obtain ⟨_, steps, _, hsteps, _⟩ := h
  exact Nat.zero_lt_of_lt hsteps

theorem first (hpos : 0 < ts.length)
    (h : ∀ room rest result after, ts.length ≤ room + 1 → fits rest →
      Reads (more e) room rest [result] after → Reads whole room (ts ++ rest) [result] after) :
    Grows whole more fits ts [e] :=
  ⟨e, 0, rfl, hpos, h⟩

theorem step (h : Grows whole more fits ts [e]) (hpos : 0 < us.length)
    (hfits : ∀ rest, fits (us ++ rest))
    (hstep : ∀ room rest final after, us.length ≤ room + 1 → fits rest →
      Reads (more result) room rest [final] after →
        Reads (more e) (room + 1) (us ++ rest) [final] after) :
    Grows whole more fits (ts ++ us) [result] := by
  obtain ⟨_, steps, ⟨⟩, hsteps, hread⟩ := h
  refine ⟨result, steps + 1, rfl, ?_, ?_⟩
  · rw [List.length_append]
    omega
  · intro room rest final after hroom hrest hfinal
    rw [List.length_append] at hroom
    have hmore := hstep room rest final after (by omega) hrest hfinal
    have hall := hread (room + 1) (us ++ rest) final after (by omega) (hfits rest) hmore
    rw [Nat.add_right_comm] at hall
    rw [List.append_assoc]
    exact hall

/-- A chain that is complete is read with all of the room. -/
theorem complete (h : Grows whole more fits ts [e]) {room : Nat} {rest : List Token}
    (hroom : ts.length ≤ room + 1) (hfits : fits rest)
    (hend : ∀ room, Reads (more e) room rest [e] rest) :
    Reads whole room (ts ++ rest) [e] rest := by
  obtain ⟨_, steps, ⟨⟩, hsteps, hread⟩ := h
  obtain ⟨before, rfl⟩ := Nat.exists_eq_add_of_le' (show steps ≤ room by omega)
  exact hread before rest e rest hroom hfits (hend before)

end Grows

theorem reads_chain_of_isRead {p : Level} {room : Nat} {ts rest : List Token} {e : Expr}
    (h : (Phrase.chain p).IsRead ts [e]) (hroom : ts.length ≤ room + 1)
    (hrest : Stops p.rank rest) : Reads (.chain p) room (ts ++ rest) [e] rest := by
  apply Grows.complete h hroom (hrest.mono (Nat.sub_le _ _))
  exact fun _ => .chainEnd fun t ht => (hrest t ht).2 p (Nat.le_refl _)

theorem reads_operand_of_isRead {p : Level} {room : Nat} {ts rest : List Token} {e : Expr}
    (h : p.operandPhrase.IsRead ts [e]) (hroom : ts.length ≤ room + 1)
    (hrest : Stops (p.rank - 1) rest) : Reads (.operand p) room (ts ++ rest) [e] rest := by
  cases hlevel : p.tighter? with
  | some q =>
      rw [operandPhrase_of_tighter? hlevel] at h
      have hrank := Level.rank_of_tighter? hlevel
      exact .tighter hlevel (reads_chain_of_isRead h hroom (hrest.mono (by omega)))
  | none =>
      rw [operandPhrase_of_tightest hlevel] at h
      exact .tightest hlevel (h.2 room rest hroom (hrest.mono (Nat.zero_le _)))

theorem length_pos_of_isRead {p : Level} {ts : List Token} {es : List Expr}
    (h : p.operandPhrase.IsRead ts es) : 0 < ts.length := by
  cases hlevel : p.tighter? with
  | some q =>
      rw [operandPhrase_of_tighter? hlevel] at h
      exact Grows.length_pos h
  | none =>
      rw [operandPhrase_of_tightest hlevel] at h
      exact h.1

/-!
# Phrases
-/

theorem isRead_of_derives {x : Phrase} {ts : List Token} {es : List Expr}
    (h : Derives x ts es) : x.IsRead ts es := by
  induction h with
  | bare _ ih =>
      intro room rest hroom hrest
      have hpos := Grows.length_pos ih
      cases room with
      | zero => omega
      | succ room => exact .bare (reads_chain_of_isRead ih hroom hrest.1) hrest.2
  | conditional _ _ _ ihTest ihConsequent ihAlternate =>
      intro room rest hroom hrest
      simp only [List.length_append, List.length_cons] at hroom
      cases room with
      | zero => omega
      | succ room =>
          simp only [List.append_assoc, List.cons_append]
          refine .conditional (reads_chain_of_isRead ihTest (by omega) ?_)
            (ihConsequent room _ (by omega) (ends_of_isClosing rfl _))
            (ihAlternate room rest (by omega) hrest)
          exact stops_of_not_operator rfl (fun q => by cases q <;> rfl) 6
  | operand _ ih =>
      refine Grows.first (length_pos_of_isRead ih) ?_
      intro room rest result after hroom hrest hread
      exact .chain (reads_operand_of_isRead ih hroom hrest) hread
  | @operation p t _ _ us _ _ sign _ _ ihLeft ihRight =>
      have hoperator := operator?_eq_some.mpr sign
      have hrank : p.rank - 1 < p.rank := by cases p <;> decide
      refine Grows.step ihLeft (Nat.succ_pos _) (fun _ => stops_of_operator hoperator hrank _) ?_
      intro room rest final after hroom hrest hfinal
      have hright := reads_operand_of_isRead ihRight (Nat.le_of_succ_le hroom) hrest
      exact .chainStep hoperator hright hfinal
  | unary sign _ ih =>
      refine ⟨Nat.succ_pos _, fun room rest hroom hrest => ?_⟩
      rw [List.length_cons] at hroom
      cases room with
      | zero => exact absurd ih.1 (by omega)
      | succ room =>
          exact .unary (unaryOp?_eq_some.mpr sign)
            (ih.2 room rest (Nat.le_of_succ_le_succ hroom) hrest)
  | noUnary _ ih =>
      obtain ⟨⟨t, more, rfl, ht⟩, hgrows⟩ := ih
      refine ⟨Nat.succ_pos _, fun room rest hroom hrest => .noUnary ?_ ?_⟩
      · rintro _ ⟨⟩
        exact ht
      · exact hgrows.complete hroom trivial fun _ => .appliedEnd fun t ht => (hrest t ht).1
  | noApplied _ ih =>
      obtain ⟨⟨t, more, rfl, ht⟩, hread⟩ := ih
      refine ⟨⟨t, more, rfl, ht⟩, Grows.first (Nat.succ_pos _) ?_⟩
      intro room rest result after hroom _ hrest
      exact .applied (hread room rest hroom) hrest
  | member _ ih =>
      obtain ⟨⟨t, more, rfl, ht⟩, hgrows⟩ := ih
      refine ⟨⟨t, _, rfl, ht⟩, hgrows.step (Nat.succ_pos _) (fun _ => trivial) ?_⟩
      intro room rest final after _ _ hfinal
      exact .member hfinal
  | index _ _ ih ihIndex =>
      obtain ⟨⟨t, more, rfl, ht⟩, hgrows⟩ := ih
      refine ⟨⟨t, _, rfl, ht⟩, hgrows.step (Nat.succ_pos _) (fun _ => trivial) ?_⟩
      intro room rest final after hroom _ hfinal
      simp only [List.length_append, List.length_cons, List.length_nil] at hroom
      rw [List.cons_append, List.append_assoc]
      exact .index (ihIndex room _ (by omega) (ends_of_isClosing rfl rest)) hfinal
  | call _ _ ih ihArguments =>
      obtain ⟨⟨t, more, rfl, ht⟩, hgrows⟩ := ih
      refine ⟨⟨t, _, rfl, ht⟩, hgrows.step (Nat.succ_pos _) (fun _ => trivial) ?_⟩
      intro room rest final after hroom _ hfinal
      simp only [List.length_append, List.length_cons, List.length_nil] at hroom
      rw [List.cons_append, List.append_assoc]
      exact .call (ihArguments room [] rest (by omega)) hfinal
  | literal token =>
      refine ⟨⟨_, [], rfl, ?_⟩, fun room rest _ => .literal (literal?_eq_some.mpr token)⟩
      cases token <;> rfl
  | parentheses _ ih =>
      refine ⟨⟨_, _, rfl, rfl⟩, fun room rest hroom => ?_⟩
      simp only [List.length_append, List.length_cons, List.length_nil] at hroom
      rw [List.cons_append, List.append_assoc]
      exact .parentheses (ih room _ (by omega) (ends_of_isClosing rfl rest))
  | noArguments =>
      intro room seen rest _
      rw [List.append_nil]
      exact .argumentsEnd
  | arguments _ ih => exact fun room seen rest hroom => (ih room seen rest hroom).1
  | argumentsComma _ ih =>
      intro room seen rest hroom
      rw [List.length_append] at hroom
      rw [List.append_assoc]
      exact (ih room seen rest (Nat.le_of_add_right_le hroom)).2
  | lastOfRow _ ih =>
      intro room seen rest hroom
      rw [← List.reverse_cons]
      constructor
      · exact .lastArgument (ih room _ hroom (ends_of_isClosing rfl rest))
      · exact .argument (ih room _ hroom (ends_of_isClosing rfl _)) .argumentsEnd
  | @row ts us e es _ _ ihFirst ih =>
      intro room seen rest hroom
      simp only [List.length_append, List.length_cons] at hroom
      have hfirst : ∀ behind, Reads .expression room (ts ++ .comma :: behind) [e]
          (.comma :: behind) :=
        fun behind => ihFirst room _ (by omega) (ends_of_isClosing rfl behind)
      have hseen : seen.reverse ++ e :: es = (e :: seen).reverse ++ es := by simp
      obtain ⟨hlast, htrailing⟩ := ih room (e :: seen) rest (by omega)
      simp only [List.append_assoc, List.cons_append]
      rw [hseen]
      exact ⟨.argument (hfirst _) hlast, .argument (hfirst _) htrailing⟩

end Script
end ComponentMarkup
