import ComponentMarkup.Proofs.Script.Reading

/-!
# Room that is not used up

With more room a reader answers the same, unless it found its room used up.  Where
it stops, no malformed token stands next.
-/

namespace ComponentMarkup
namespace Script
namespace Setting

/-- Whether no malformed token stands next. -/
def Ready (s : Setting) (ts : List Token) : Prop :=
  s.goOn ts = .ok ts

/-- The same code under another limit. -/
def withLimit (s : Setting) (limit : Nat) : Setting :=
  { s with limit := limit }

/-- An answer settles another one when they are the same and what is answered is
good.  An answer that the room is used up settles all others. -/
def Settles (s : Setting) {α : Type} (good : α → Prop) (answer other : Except EvalError α) :
    Prop :=
  answer = .error (.tooDeep s.limit) ∨ answer = other ∧ ∀ a, answer = .ok a → good a

variable {s : Setting} {limit : Nat}

theorem ready_nil_iff : s.Ready [] ↔ s.atEnd = none := by
  unfold Ready goOn
  cases s.atEnd with
  | none => simp
  | some cause => simp

/-!
# Steps of a reader
-/

section Settling

variable {α β : Type} {good : α → Prop} {better : β → Prop}

theorem settles_tooDeep (other : Except EvalError α) :
    s.Settles good (.error (.tooDeep s.limit)) other :=
  Or.inl rfl

theorem settles_ok {a : α} (h : good a) : s.Settles good (.ok a) (.ok a) := by
  refine Or.inr ⟨rfl, ?_⟩
  intro b hb
  cases hb
  exact h

theorem settles_error (cause : EvalError) : s.Settles good (.error cause) (.error cause) := by
  refine Or.inr ⟨rfl, ?_⟩
  intro a ha
  cases ha

theorem settles_bind {answer other : Except EvalError α} {f g : α → Except EvalError β}
    (h : s.Settles good answer other) (hnext : ∀ a, good a → s.Settles better (f a) (g a)) :
    s.Settles better (answer >>= f) (other >>= g) := by
  rcases h with rfl | ⟨rfl, hgood⟩
  · exact settles_tooDeep _
  · cases answer with
    | error cause => exact settles_error cause
    | ok a => exact hnext a (hgood a rfl)

end Settling

theorem settles_goOn (ts : List Token) :
    s.Settles s.Ready (s.goOn ts) ((s.withLimit limit).goOn ts) := by
  refine Or.inr ⟨rfl, ?_⟩
  intro rest hrest
  obtain rfl := goOn_eq_ok hrest
  exact hrest

theorem settles_expect (t : Token) (ts : List Token) :
    s.Settles s.Ready (s.expect t ts) ((s.withLimit limit).expect t ts) := by
  cases ts with
  | nil => exact settles_error _
  | cons found rest =>
      rw [expect, expect]
      by_cases h : found = t
      · rw [if_pos h, if_pos h]
        exact settles_goOn rest
      · rw [if_neg h, if_neg h]
        exact settles_error _

/-!
# Readers
-/

/-- What a reader leaves has no malformed token next. -/
def LeavesReady (s : Setting) {α : Type} (read : α × List Token) : Prop :=
  s.Ready read.2

mutual

theorem settles_expression {room more : Nat} (hle : room ≤ more) (ts : List Token) :
    s.Settles s.LeavesReady (s.expression room ts) ((s.withLimit limit).expression more ts) := by
  cases room with
  | zero =>
      rw [expression]
      exact settles_tooDeep _
  | succ room =>
      obtain ⟨more, rfl⟩ := Nat.exists_eq_add_one_of_ne_zero (Nat.ne_zero_of_lt hle)
      have hle' := Nat.le_of_succ_le_succ hle
      rw [expression, expression]
      refine settles_bind (settles_chain hle' ts) ?_
      rintro ⟨test, afterTest⟩ hafter
      dsimp only
      split
      · refine settles_bind (settles_goOn _) fun rest _ => ?_
        refine settles_bind (settles_expression hle' rest) ?_
        rintro ⟨consequent, afterConsequent⟩ _
        refine settles_bind (settles_expect _ _) fun rest _ => ?_
        refine settles_bind (settles_expression hle' rest) ?_
        rintro ⟨alternate, rest⟩ hrest
        exact settles_ok hrest
      · exact settles_ok hafter
termination_by (room, 0, 0)

theorem settles_chain {p : Level} {room more : Nat} (hle : room ≤ more) (ts : List Token) :
    s.Settles s.LeavesReady (s.chain p room ts) ((s.withLimit limit).chain p more ts) := by
  rw [chain, chain]
  refine settles_bind (settles_operand hle ts) ?_
  rintro ⟨left, rest⟩ hrest
  exact settles_chainFrom hle hrest
termination_by (room, 3 * p.rank + 7, 0)

theorem settles_chainFrom {p : Level} {room more : Nat} (hle : room ≤ more) {left : Expr}
    {ts : List Token} (hready : s.Ready ts) :
    s.Settles s.LeavesReady (s.chainFrom p room left ts)
      ((s.withLimit limit).chainFrom p more left ts) := by
  cases ts with
  | nil =>
      rw [chainFrom, chainFrom]
      exact settles_ok hready
  | cons t ts =>
      rw [chainFrom.eq_def, chainFrom.eq_def]
      dsimp only
      split
      · exact settles_ok hready
      · rename_i combine hoperator
        cases room with
        | zero => exact settles_tooDeep _
        | succ room =>
            obtain ⟨more, rfl⟩ := Nat.exists_eq_add_one_of_ne_zero (Nat.ne_zero_of_lt hle)
            have hle' := Nat.le_of_succ_le_succ hle
            refine settles_bind (settles_goOn ts) fun rest _ => ?_
            refine settles_bind (settles_operand hle' rest) ?_
            rintro ⟨right, rest⟩ hrest
            exact settles_chainFrom hle' hrest
termination_by (room, 3 * p.rank + 6, 0)

theorem settles_operand {p : Level} {room more : Nat} (hle : room ≤ more) (ts : List Token) :
    s.Settles s.LeavesReady (s.operand p room ts) ((s.withLimit limit).operand p more ts) := by
  rw [operand, operand]
  split
  · rename_i q hlevel
    have := Level.rank_of_tighter? hlevel
    exact settles_chain hle ts
  · exact settles_unary hle ts
termination_by (room, 3 * p.rank + 5, 0)

theorem settles_unary {room more : Nat} (hle : room ≤ more) (ts : List Token) :
    s.Settles s.LeavesReady (s.unary room ts) ((s.withLimit limit).unary more ts) := by
  cases ts with
  | nil =>
      rw [unary, unary]
      exact settles_applied hle []
  | cons t ts =>
      rw [unary.eq_def, unary.eq_def]
      dsimp only
      split
      · exact settles_applied hle (t :: ts)
      · rename_i op hoperator
        refine settles_bind (settles_goOn ts) fun rest _ => ?_
        cases room with
        | zero => exact settles_tooDeep _
        | succ room =>
            obtain ⟨more, rfl⟩ := Nat.exists_eq_add_one_of_ne_zero (Nat.ne_zero_of_lt hle)
            refine settles_bind (settles_unary (Nat.le_of_succ_le_succ hle) rest) ?_
            rintro ⟨e, rest⟩ hrest
            exact settles_ok hrest
termination_by (room, 4, 0)

theorem settles_applied {room more : Nat} (hle : room ≤ more) (ts : List Token) :
    s.Settles s.LeavesReady (s.applied room ts) ((s.withLimit limit).applied more ts) := by
  rw [applied, applied]
  refine settles_bind (settles_primary hle ts) ?_
  rintro ⟨e, rest⟩ hrest
  exact settles_appliedFrom hle hrest
termination_by (room, 3, 0)

theorem settles_appliedFrom {room more : Nat} (hle : room ≤ more) {e : Expr} {ts : List Token}
    (hready : s.Ready ts) :
    s.Settles s.LeavesReady (s.appliedFrom room e ts)
      ((s.withLimit limit).appliedFrom more e ts) := by
  by_cases hpostfix : ∃ t rest, ts = t :: rest ∧ isPostfix t = true
  · obtain ⟨t, rest, rfl, ht⟩ := hpostfix
    cases room with
    | zero =>
        rcases isPostfix_iff.mp ht with rfl | rfl | rfl
        all_goals
          rw [appliedFrom]
          exact settles_tooDeep _
    | succ room =>
        obtain ⟨more, rfl⟩ := Nat.exists_eq_add_one_of_ne_zero (Nat.ne_zero_of_lt hle)
        have hle' := Nat.le_of_succ_le_succ hle
        rcases isPostfix_iff.mp ht with rfl | rfl | rfl
        · rw [appliedFrom, appliedFrom]
          refine settles_bind (settles_goOn rest) fun rest _ => ?_
          split
          · refine settles_bind (settles_goOn _) fun rest hrest => ?_
            exact settles_appliedFrom hle' hrest
          · exact settles_error _
        · rw [appliedFrom, appliedFrom]
          refine settles_bind (settles_goOn rest) fun rest _ => ?_
          refine settles_bind (settles_expression hle' rest) ?_
          rintro ⟨i, rest⟩ _
          refine settles_bind (settles_expect _ _) fun rest hrest => ?_
          exact settles_appliedFrom hle' hrest
        · rw [appliedFrom, appliedFrom]
          refine settles_bind (settles_goOn rest) fun behind _ => ?_
          refine settles_bind (settles_arguments hle' _ [] behind) ?_
          rintro ⟨arguments, rest⟩ hrest
          exact settles_appliedFrom hle' hrest
  · have hstop : ∀ t ∈ ts.head?, isPostfix t = false := by
      intro t ht
      obtain ⟨rest, rfl⟩ := List.head?_eq_some_iff.mp ht
      rw [Bool.eq_false_iff]
      exact fun hgoesOn => hpostfix ⟨t, rest, rfl, hgoesOn⟩
    rw [appliedFrom_of_stopped hstop, appliedFrom_of_stopped hstop]
    exact settles_ok hready
termination_by (room, 2, 0)

theorem settles_arguments {room more : Nat} (hle : room ≤ more) (clock : List Token)
    (seen : List Expr) (ts : List Token) :
    s.Settles s.LeavesReady (s.arguments room clock seen ts)
      ((s.withLimit limit).arguments more clock seen ts) := by
  rw [arguments.eq_def, arguments.eq_def]
  split
  · refine settles_bind (settles_goOn _) fun rest hrest => ?_
    exact settles_ok hrest
  · exact settles_error _
  · refine settles_bind (settles_expression hle ts) ?_
    rintro ⟨e, rest⟩ hrest
    dsimp only
    split
    · refine settles_bind (settles_goOn _) fun rest _ => ?_
      exact settles_arguments hle _ _ rest
    · refine settles_bind (settles_expect _ _) fun rest hrest => ?_
      exact settles_ok hrest
termination_by (room, 1, clock.length)

theorem settles_primary {room more : Nat} (hle : room ≤ more) (ts : List Token) :
    s.Settles s.LeavesReady (s.primary room ts) ((s.withLimit limit).primary more ts) := by
  rw [primary.eq_def, primary.eq_def]
  split
  · refine settles_bind (settles_goOn _) fun rest _ => ?_
    refine settles_bind (settles_expression hle rest) ?_
    rintro ⟨e, rest⟩ _
    refine settles_bind (settles_expect _ _) fun rest hrest => ?_
    exact settles_ok hrest
  · exact settles_error _
  · split
    · exact settles_error _
    · refine settles_bind (settles_goOn _) fun rest hrest => ?_
      exact settles_ok hrest
termination_by (room, 1, 0)

end

/-!
# Programs
-/

theorem settles_declaration (hle : s.limit ≤ limit) (ts : List Token) :
    s.Settles s.LeavesReady (s.declaration ts) ((s.withLimit limit).declaration ts) := by
  rw [declaration, declaration]
  refine settles_bind (settles_goOn ts) fun rest _ => ?_
  split
  · refine settles_bind (settles_goOn _) fun rest hrest => ?_
    split
    · refine settles_bind (settles_goOn _) fun rest _ => ?_
      refine settles_bind (settles_expression hle rest) ?_
      rintro ⟨e, rest⟩ hrest
      exact settles_ok hrest
    · exact settles_ok hrest
  · exact settles_error _

theorem settles_statement (hle : s.limit ≤ limit) (ts : List Token) :
    s.Settles s.LeavesReady (s.statement ts) ((s.withLimit limit).statement ts) := by
  rw [statement.eq_def, statement.eq_def]
  split
  · refine settles_bind (settles_expression hle []) ?_
    rintro ⟨e, rest⟩ hrest
    exact settles_ok hrest
  · split
    · exact settles_declaration hle _
    · refine settles_bind (settles_expression hle _) ?_
      rintro ⟨e, rest⟩ hrest
      exact settles_ok hrest

theorem settles_statements (hle : s.limit ≤ limit) (clock : List Token) (seen : List Statement)
    {ts : List Token} (hready : s.Ready ts) :
    s.Settles (fun _ => s.atEnd = none) (s.statements clock seen ts)
      ((s.withLimit limit).statements clock seen ts) := by
  induction clock generalizing seen ts with
  | nil =>
      rw [statements.eq_def, statements.eq_def]
      split
      · exact settles_ok (ready_nil_iff.mp hready)
      · exact settles_error _
      · rename_i hclock
        cases hclock
      · rename_i hclock
        cases hclock
  | cons c clock ih =>
      rw [statements.eq_def, statements.eq_def]
      split
      · exact settles_ok (ready_nil_iff.mp hready)
      · rename_i hclock
        cases hclock
      · rename_i hclock
        cases hclock
        exact settles_bind (settles_goOn _) fun rest hrest => ih seen hrest
      · rename_i hclock
        cases hclock
        refine settles_bind (settles_statement hle _) ?_
        rintro ⟨found, rest⟩ hrest
        dsimp only
        split
        · exact settles_ok (ready_nil_iff.mp hrest)
        · exact settles_bind (settles_goOn _) fun rest hrest => ih (found :: seen) hrest
        · exact settles_error _

end Setting

/-- Under a greater limit code is parsed alike, unless an expression was too deep.
Where it is a program, there is no malformed token in it. -/
theorem settles_parse {limit more : Nat} (hle : limit ≤ more) (code : String) :
    Setting.Settles ⟨limit, (tokens code).2⟩ (fun _ => (tokens code).2 = none)
      (parse limit code) (parse more code) := by
  rw [parse, parse]
  refine Setting.settles_bind (Setting.settles_goOn _) fun ts hts => ?_
  exact Setting.settles_statements hle ts [] hts

/-- All the tokens of code that is parsed are well-formed. -/
theorem tokens_of_parse {limit : Nat} {code : String} {program : Program}
    (h : parse limit code = .ok program) : ∃ ts, tokens code = (ts, none) := by
  rcases settles_parse (Nat.le_refl limit) code with hdeep | ⟨_, hend⟩
  · rw [h] at hdeep
    cases hdeep
  · exact ⟨(tokens code).1, Prod.ext rfl (hend program h)⟩

end Script
end ComponentMarkup
