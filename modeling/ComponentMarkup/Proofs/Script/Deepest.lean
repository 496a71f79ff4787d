import Mathlib.Tactic.IntervalCases
import ComponentMarkup.Proofs.Script.Height
import ComponentMarkup.Proofs.Script.Programs
import ComponentMarkup.Proofs.Script.Spelling
import ComponentMarkup.Proofs.Script.Stopping

/-!
# The highest expressions

Under every limit some code is read that is as high as reading allows.  It puts
parentheses around the highest code of the limit before, and behind them all seven
kinds of chains, each as long as its room, and a condition around it all.  So the
limit itself bounds the height only where it is at most one.
-/

namespace ComponentMarkup
namespace Script

/-!
# Tokens of the highest expressions
-/

def brick : Token :=
  .identifier "a"

def Level.sign : Level → Token
  | .or => .orOr
  | .and => .andAnd
  | .equality => .equal
  | .relation => .less
  | .sum => .plus
  | .product => .star

/-- Repeat a token, each time with a name behind it, in front of other tokens. -/
def stepsOnto (t : Token) : Nat → List Token → List Token
  | 0, rest => rest
  | count + 1, rest => t :: brick :: stepsOnto t count rest

/-- The chains of all levels that start with some tokens, tightest first, as long as
their room. -/
def chainsOnto (room : Nat) (rest : List Token) : List Token :=
  stepsOnto .dot room
    (stepsOnto Level.product.sign room
      (stepsOnto Level.sum.sign room
        (stepsOnto Level.relation.sign room
          (stepsOnto Level.equality.sign room
            (stepsOnto Level.and.sign room (stepsOnto Level.or.sign room rest))))))

/-- The highest expression of a limit in front of other tokens. -/
def towerOnto : Nat → List Token → List Token
  | 0, rest => rest
  | 1, rest => brick :: rest
  | room + 2, rest =>
      .leftParen :: towerOnto (room + 1) (.rightParen ::
        chainsOnto (room + 1) (.question :: brick :: .colon :: brick :: rest))

/-!
# Reading them
-/

namespace Level

theorem rank_pos (p : Level) : 0 < p.rank := by
  cases p <;> decide

theorem operator?_sign (p : Level) : ∃ combine, p.operator? p.sign = some combine := by
  cases p <;> exact ⟨_, rfl⟩

theorem stops_sign {p : Level} {rank : Nat} (h : rank < p.rank) (ts : List Token) :
    Stops rank (p.sign :: ts) := by
  rcases p.operator?_sign with ⟨combine, hoperator⟩
  exact stops_of_operator hoperator h ts

end Level

theorem stops_stepsOnto {p : Level} {rank : Nat} {rest : List Token} (h : rank < p.rank)
    (hrest : Stops rank rest) (count : Nat) : Stops rank (stepsOnto p.sign count rest) := by
  cases count with
  | zero => exact hrest
  | succ count => exact Level.stops_sign h _

theorem reads_operand_of_applied {p : Level} {room : Nat} {ts rest : List Token} {e : Expr}
    (h : Reads .applied room ts [e] rest) (hstart : ∀ t ∈ ts.head?, unaryOp? t = none)
    (hrest : Stops (p.rank - 1) rest) : Reads (.operand p) room ts [e] rest := by
  cases hlevel : p.tighter? with
  | none => exact .tightest hlevel (.noUnary hstart h)
  | some q =>
      have hrank := Level.rank_of_tighter?_eq_some hlevel
      refine .tighter hlevel (.chain (reads_operand_of_applied h hstart ?_) (.chainEnd ?_))
      · exact hrest.mono (by omega)
      · exact fun t ht => (hrest t ht).2 q (by omega)
termination_by p.rank

theorem reads_brick {p : Level} {ts : List Token} (h : Stops (p.rank - 1) ts) (room : Nat) :
    Reads (.operand p) room (brick :: ts) [.identifier "a"] ts := by
  have hfirst : Reads .applied room (brick :: ts) [.identifier "a"] ts :=
    .applied (.literal rfl) (.appliedEnd fun t ht => (h t ht).1)
  apply reads_operand_of_applied hfirst _ h
  intro t ht
  cases ht
  rfl

theorem reads_brick_expression {ts : List Token} (h : Stops 6 ts)
    (hnext : ts.head? ≠ some .question) (room : Nat) :
    Reads .expression (room + 1) (brick :: ts) [.identifier "a"] ts := by
  refine .bare (.chain (reads_brick (h.mono (by decide)) room) (.chainEnd ?_)) hnext
  exact fun t ht => (h t ht).2 .or (Nat.le_refl 6)

theorem exists_reads_members {rest : List Token} (hrest : Stops 0 rest) (room : Nat) (e : Expr) :
    ∃ result, result.height = e.height + room ∧
      Reads (.appliedFrom e) room (stepsOnto .dot room rest) [result] rest := by
  induction room generalizing e with
  | zero => exact ⟨e, rfl, .appliedEnd fun t ht => (hrest t ht).1⟩
  | succ room ih =>
      rcases ih (.member e "a") with ⟨result, hheight, hread⟩
      refine ⟨result, ?_, .member hread⟩
      rw [hheight, Expr.height]
      omega

theorem exists_reads_steps {p : Level} {rest : List Token} (hrest : Stops p.rank rest)
    (room : Nat) (left : Expr) :
    ∃ e, e.height = left.height + room ∧
      Reads (.chainFrom p left) room (stepsOnto p.sign room rest) [e] rest := by
  induction room generalizing left with
  | zero => exact ⟨left, rfl, .chainEnd fun t ht => (hrest t ht).2 p (Nat.le_refl _)⟩
  | succ room ih =>
      rcases p.operator?_sign with ⟨combine, hoperator⟩
      rcases ih (combine left (.identifier "a")) with ⟨e, hheight, hread⟩
      have hpos := p.rank_pos
      have hbehind : Stops (p.rank - 1) (stepsOnto p.sign room rest) :=
        stops_stepsOnto (by omega) (hrest.mono (by omega)) room
      refine ⟨e, ?_, .chainStep hoperator (reads_brick hbehind room) hread⟩
      have hleaf := left.height_pos
      rw [hheight, height_operator hoperator, Expr.height]
      omega

/-- An operand in front of a chain of its level makes a chain that is higher by its
room. -/
theorem exists_reads_chain {p : Level} {room : Nat} {ts rest : List Token} {left : Expr}
    (h : Reads (.operand p) room ts [left] (stepsOnto p.sign room rest))
    (hrest : Stops p.rank rest) :
    ∃ e, e.height = left.height + room ∧ Reads (.chain p) room ts [e] rest := by
  rcases exists_reads_steps hrest room left with ⟨e, hheight, hread⟩
  exact ⟨e, hheight, .chain h hread⟩

theorem exists_reads_chains {room : Nat} {ts rest : List Token} {first : Expr}
    (h : Reads .primary room ts [first] (chainsOnto room rest))
    (hstart : ∀ t ∈ ts.head?, unaryOp? t = none) (hrest : Stops 6 rest) :
    ∃ e, e.height = first.height + 7 * room ∧ Reads (.chain .or) room ts [e] rest := by
  have hor : Stops 5 (stepsOnto Level.or.sign room rest) :=
    stops_stepsOnto (by decide) (hrest.mono (by decide)) room
  have hand : Stops 4 (stepsOnto Level.and.sign room _) :=
    stops_stepsOnto (by decide) (hor.mono (by decide)) room
  have hequality : Stops 3 (stepsOnto Level.equality.sign room _) :=
    stops_stepsOnto (by decide) (hand.mono (by decide)) room
  have hrelation : Stops 2 (stepsOnto Level.relation.sign room _) :=
    stops_stepsOnto (by decide) (hequality.mono (by decide)) room
  have hsum : Stops 1 (stepsOnto Level.sum.sign room _) :=
    stops_stepsOnto (by decide) (hrelation.mono (by decide)) room
  have hproduct : Stops 0 (stepsOnto Level.product.sign room _) :=
    stops_stepsOnto (by decide) (hsum.mono (by decide)) room
  rcases exists_reads_members hproduct room first with ⟨e₀, hheight₀, hread₀⟩
  rcases exists_reads_chain (.tightest rfl (.noUnary hstart (.applied h hread₀))) hsum with
    ⟨e₁, hheight₁, hread₁⟩
  rcases exists_reads_chain (.tighter rfl hread₁) hrelation with ⟨e₂, hheight₂, hread₂⟩
  rcases exists_reads_chain (.tighter rfl hread₂) hequality with ⟨e₃, hheight₃, hread₃⟩
  rcases exists_reads_chain (.tighter rfl hread₃) hand with ⟨e₄, hheight₄, hread₄⟩
  rcases exists_reads_chain (.tighter rfl hread₄) hor with ⟨e₅, hheight₅, hread₅⟩
  rcases exists_reads_chain (.tighter rfl hread₅) hrest with ⟨e₆, hheight₆, hread₆⟩
  exact ⟨e₆, by omega, hread₆⟩

theorem stops_of_closing {rest : List Token} (h : ∀ t ∈ rest.head?, t = .rightParen) :
    Stops 6 rest ∧ rest.head? ≠ some .question := by
  constructor
  · intro t ht
    rw [h t ht]
    exact ⟨rfl, fun q _ => by cases q <;> rfl⟩
  · intro hquestion
    cases h _ hquestion

theorem exists_reads_tower (room : Nat) {rest : List Token}
    (hrest : ∀ t ∈ rest.head?, t = .rightParen) :
    ∃ e, e.height = deepest (room + 1) ∧
      Reads .expression (room + 1) (towerOnto (room + 1) rest) [e] rest := by
  obtain ⟨hstops, hnext⟩ := stops_of_closing hrest
  induction room generalizing rest with
  | zero => exact ⟨.identifier "a", rfl, reads_brick_expression hstops hnext 0⟩
  | succ room ih =>
      have hcolon : Stops 6 (.colon :: brick :: rest) :=
        stops_of_not_operator rfl (fun q => by cases q <;> rfl) 6
      have hquestion : Stops 6 (.question :: brick :: .colon :: brick :: rest) :=
        stops_of_not_operator rfl (fun q => by cases q <;> rfl) 6
      have hparen : ∀ t ∈ (Token.rightParen :: chainsOnto (room + 1)
          (.question :: brick :: .colon :: brick :: rest)).head?, t = .rightParen := by
        intro t ht
        cases ht
        rfl
      obtain ⟨hparenStops, hparenNext⟩ := stops_of_closing hparen
      rcases ih hparen hparenStops hparenNext with ⟨inner, hinner, hread⟩
      rcases exists_reads_chains (.parentheses hread) (by rintro _ ⟨⟩; rfl) hquestion with
        ⟨test, htest, hchains⟩
      refine ⟨.conditional test (.identifier "a") (.identifier "a"), ?_, .conditional hchains
        (reads_brick_expression hcolon (by rintro ⟨⟩) room)
        (reads_brick_expression hstops hnext room)⟩
      have hleaf := test.height_pos
      have hdeeper := deepest_succ (room + 1)
      simp only [Expr.height]
      omega

/-!
# Writing them out
-/

def spelling : Token → List Char
  | .leftParen => ['(']
  | .rightParen => [')']
  | .dot => ['.']
  | .star => ['*']
  | .plus => ['+']
  | .less => ['<']
  | .equal => ['=', '=']
  | .andAnd => ['&', '&']
  | .orOr => ['|', '|']
  | .question => ['?']
  | .colon => [':']
  | _ => ['a']

/-- The tokens of the highest expressions. -/
def bricks : List Token :=
  [brick, .leftParen, .rightParen, .dot, .star, .plus, .less, .equal, .andAnd, .orOr, .question,
    .colon]

theorem spells_bricks {t : Token} (h : t ∈ bricks) : Spells (spelling t) t := by
  simp only [bricks, List.mem_cons, List.not_mem_nil, or_false] at h
  rcases h with rfl | rfl | rfl | rfl | rfl | rfl | rfl | rfl | rfl | rfl | rfl | rfl
  all_goals
    constructor
    · exact ⟨_, _, rfl, by decide, by decide⟩
    · rintro c more rest ⟨⟩
      rfl

theorem stepsOnto_subset_bricks {t : Token} (ht : t ∈ bricks) (count : Nat) {rest : List Token}
    (hrest : rest ⊆ bricks) : stepsOnto t count rest ⊆ bricks := by
  induction count with
  | zero => exact hrest
  | succ count ih =>
      exact List.cons_subset.mpr ⟨ht, List.cons_subset.mpr ⟨List.mem_cons_self, ih⟩⟩

theorem chainsOnto_subset_bricks (room : Nat) {rest : List Token} (hrest : rest ⊆ bricks) :
    chainsOnto room rest ⊆ bricks := by
  have hsign : ∀ p : Level, p.sign ∈ bricks := by
    intro p
    cases p <;> decide
  unfold chainsOnto
  refine stepsOnto_subset_bricks (by decide) room ?_
  iterate 6 refine stepsOnto_subset_bricks (hsign _) room ?_
  exact hrest

theorem towerOnto_subset_bricks (room : Nat) {rest : List Token} (hrest : rest ⊆ bricks) :
    towerOnto room rest ⊆ bricks := by
  fun_induction towerOnto room rest with
  | case1 rest => exact hrest
  | case2 rest => exact List.cons_subset.mpr ⟨List.mem_cons_self, hrest⟩
  | case3 room rest ih =>
      refine List.cons_subset.mpr ⟨by decide, ih ?_⟩
      refine List.cons_subset.mpr ⟨by decide, chainsOnto_subset_bricks (room + 1) ?_⟩
      refine List.cons_subset.mpr ⟨by decide, List.cons_subset.mpr ⟨by decide, ?_⟩⟩
      exact List.cons_subset.mpr ⟨by decide, List.cons_subset.mpr ⟨by decide, hrest⟩⟩

/-- The code of the highest expression of a limit. -/
def towerCode (limit : Nat) : String :=
  String.ofList (spelled ((towerOnto limit []).map fun t => (spelling t, t)))

theorem tokens_towerCode (limit : Nat) : tokens (towerCode limit) = (towerOnto limit [], none) := by
  have hspells : ∀ x ∈ (towerOnto limit []).map fun t => (spelling t, t), Spells x.1 x.2 := by
    intro x hx
    rcases List.mem_map.mp hx with ⟨t, ht, rfl⟩
    exact spells_bricks (towerOnto_subset_bricks limit (List.nil_subset _) ht)
  rw [towerCode, tokens_spelled hspells, List.map_map]
  exact congrArg (·, none) (List.map_id _)

theorem exists_parse_towerCode (room : Nat) :
    ∃ e, e.height = deepest (room + 1) ∧
      parse (room + 1) (towerCode (room + 1)) = .ok [.expression e] := by
  rcases @exists_reads_tower room [] (by rintro _ ⟨⟩) with ⟨e, hheight, hread⟩
  refine ⟨e, hheight, ?_⟩
  have htokens := tokens_towerCode (room + 1)
  cases room with
  | zero => exact parse_of_reads htokens rfl hread
  | succ room => exact parse_of_reads htokens rfl hread

/-!
# The limit and the height
-/

/-- Under a limit no expression is higher than a bound. -/
def HeightsBounded (limit bound : Nat) : Prop :=
  ∀ code program, parse limit code = .ok program → ∀ e ∈ expressions program, e.height ≤ bound

theorem heightsBounded_iff {limit bound : Nat} :
    HeightsBounded limit bound ↔ deepest limit ≤ bound := by
  constructor
  · intro h
    cases limit with
    | zero => exact Nat.zero_le bound
    | succ room =>
        rcases exists_parse_towerCode room with ⟨e, hheight, hparse⟩
        rw [← hheight]
        exact h _ _ hparse e List.mem_cons_self
  · intro hbound code program hparse e he
    rcases reads_of_parse hparse he with ⟨ts, rest, hread⟩
    have hheight := heightOfAll_le_bound hread
    rw [heightOfAll_singleton] at hheight
    exact Nat.le_trans hheight hbound

theorem deepest_le_iff {limit : Nat} : deepest limit ≤ limit ↔ limit ≤ 1 := by
  constructor
  · intro h
    cases limit with
    | zero => exact Nat.zero_le 1
    | succ room =>
        have hdeeper := deepest_succ room
        have hroom : room ≤ deepest room := by
          cases room with
          | zero => exact Nat.zero_le _
          | succ room =>
              have hinner := deepest_succ room
              omega
        omega
  · intro h
    interval_cases limit <;> decide

/-- Heights are bounded by `deepest limit` and by nothing less, so the limit bounds
them just where it is at most one. -/
theorem heightsBounded_limit (limit : Nat) :
    (HeightsBounded limit limit ↔ limit ≤ 1) ∧
      ∀ bound, HeightsBounded limit bound ↔ deepest limit ≤ bound := by
  constructor
  · rw [heightsBounded_iff]
    exact deepest_le_iff
  · intro bound
    exact heightsBounded_iff

theorem parse_product_in_sum :
    ∃ e, parse 2 "a*a+a" = .ok [.expression e] ∧ e.height = 3 := by
  have htokens : tokens "a*a+a" = ([brick, .star, brick, .plus, brick], none) := by
    decide +kernel
  have hend : ∀ rank, Stops rank [] := by
    intro rank t ht
    cases ht
  have hlast : ∀ p : Level, ∀ t ∈ ([] : List Token).head?, p.operator? t = none :=
    fun p t ht => (hend p.rank t ht).2 p (Nat.le_refl _)
  have hplus : Stops 1 [Level.sum.sign, brick] := Level.stops_sign (by decide) [brick]
  have hstar : Stops 0 [Level.product.sign, brick, .plus, brick] :=
    Level.stops_sign (by decide) [brick, .plus, brick]
  have hproduct : Reads (.chain .product) 1 [brick, .star, brick, .plus, brick]
      [.binary .multiply (.identifier "a") (.identifier "a")] [.plus, brick] :=
    .chain (@reads_brick .product _ hstar 1)
      (.chainStep rfl (@reads_brick .product _ (hplus.mono (Nat.zero_le 1)) 0)
        (.chainEnd fun t ht => (hplus t ht).2 .product (Nat.le_refl 1)))
  have hsum : Reads (.chain .sum) 1 [brick, .star, brick, .plus, brick]
      [.binary .add (.binary .multiply (.identifier "a") (.identifier "a")) (.identifier "a")] [] :=
    .chain (.tighter rfl hproduct)
      (.chainStep rfl (@reads_brick .sum _ (hend 1) 0) (.chainEnd (hlast .sum)))
  have hor : Reads (.chain .or) 1 [brick, .star, brick, .plus, brick]
      [.binary .add (.binary .multiply (.identifier "a") (.identifier "a")) (.identifier "a")] [] := by
    iterate 4 refine .chain (.tighter rfl ?_) (.chainEnd (hlast _))
    exact hsum
  exact ⟨_, parse_of_reads htokens rfl (.bare hor (by decide)), rfl⟩

end Script
end ComponentMarkup
