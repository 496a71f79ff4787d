import ComponentMarkup.Proofs.Script.Answering

/-!
# Programs and their statements

One relation says what the statements of a program are read of.  Every statement reads its
expression with all of the room, and a semicolon or the end stands behind it.
-/

namespace ComponentMarkup
namespace Script

def Statement.expression? : Statement → Option Expr
  | .declare _ value => value
  | .expression e => some e

def expressions (program : Program) : List Expr :=
  program.filterMap Statement.expression?

/-- What a statement is read of with some room, and the tokens behind it. -/
inductive ReadsStatement (room : Nat) : List Token → Statement → List Token → Prop where
  | declaration {t name rest} (word : Setting.startsDeclaration t = true)
      (next : rest.head? ≠ some .assign) :
      ReadsStatement room (t :: .identifier name :: rest) (.declare name none) rest
  | initialized {t name ts e rest} (word : Setting.startsDeclaration t = true)
      (read : Reads .expression room ts [e] rest) :
      ReadsStatement room (t :: .identifier name :: .assign :: ts) (.declare name (some e)) rest
  | expression {ts e rest} (next : ∀ t ∈ ts.head?, Setting.startsDeclaration t = false)
      (read : Reads .expression room ts [e] rest) :
      ReadsStatement room ts (.expression e) rest

/-- What the statements of a program are read of. -/
inductive ReadsProgram (room : Nat) : List Token → Program → Prop where
  | nil : ReadsProgram room [] []
  | semicolon {ts program} (rest : ReadsProgram room ts program) :
      ReadsProgram room (.semicolon :: ts) program
  | last {ts found} (read : ReadsStatement room ts found []) : ReadsProgram room ts [found]
  | statement {ts us found program} (first : ReadsStatement room ts found (.semicolon :: us))
      (rest : ReadsProgram room us program) :
      ReadsProgram room ts (found :: program)

theorem length_le_of_readsStatement {room : Nat} {ts rest : List Token} {found : Statement}
    (h : ReadsStatement room ts found rest) : rest.length ≤ ts.length := by
  cases h with
  | declaration word next => exact Nat.le_succ_of_le (Nat.le_succ _)
  | initialized word read =>
      have hle := length_le_of_reads read
      simp only [List.length_cons]
      omega
  | expression next read => exact length_le_of_reads read

/-- A statement starts with no semicolon. -/
theorem exists_cons_of_readsStatement {room : Nat} {ts rest : List Token} {found : Statement}
    (h : ReadsStatement room ts found rest) : ∃ t more, ts = t :: more ∧ t ≠ .semicolon := by
  have hword : ∀ {t}, Setting.startsDeclaration t = true → t ≠ .semicolon := by
    rintro _ word rfl
    cases word
  cases h with
  | declaration word next => exact ⟨_, _, rfl, hword word⟩
  | initialized word read => exact ⟨_, _, rfl, hword word⟩
  | expression next read =>
      obtain ⟨t, more, rfl, hstart⟩ := startsExpression_of_reads read rfl
      refine ⟨t, more, rfl, ?_⟩
      rintro rfl
      cases hstart

/-- Every expression of a program was read with all of the room. -/
theorem reads_of_readsProgram {room : Nat} {ts : List Token} {program : Program}
    (h : ReadsProgram room ts program) {e : Expr} (he : e ∈ expressions program) :
    ∃ us rest, Reads .expression room us [e] rest := by
  have hstatement : ∀ {ts found rest}, ReadsStatement room ts found rest →
      found.expression? = some e → ∃ us rest, Reads .expression room us [e] rest := by
    intro ts found rest hread hexpression
    cases hread with
    | declaration word next => cases hexpression
    | initialized word read =>
        cases hexpression
        exact ⟨_, _, read⟩
    | expression next read =>
        cases hexpression
        exact ⟨_, _, read⟩
  rcases List.mem_filterMap.mp he with ⟨found, hfound, hexpression⟩
  induction h with
  | nil => cases hfound
  | semicolon _ ih => exact ih he hfound
  | last read =>
      cases List.mem_singleton.mp hfound
      exact hstatement read hexpression
  | statement first _ ih =>
      rcases List.mem_cons.mp hfound with rfl | hrest
      · exact hstatement first hexpression
      · exact ih (List.mem_filterMap.mpr ⟨found, hrest, hexpression⟩) hrest

namespace Setting

variable {s : Setting}

/-!
# What is read
-/

theorem readsStatement_of_declaration {t : Token} (word : startsDeclaration t = true)
    {ts rest : List Token} {found : Statement} (h : s.declaration ts = .ok (found, rest)) :
    ReadsStatement s.limit (t :: ts) found rest := by
  unfold declaration at h
  have hname := of_goOn_bind h
  split at hname
  · have hassign := of_goOn_bind hname
    split at hassign
    · rcases bind_eq_ok.mp (of_goOn_bind hassign) with ⟨⟨value, behind⟩, hvalue, hresult⟩
      cases hresult
      exact .initialized word (reads_expression hvalue)
    · rename_i hnext
      cases hassign
      refine .declaration word ?_
      intro hassign
      rcases List.head?_eq_some_iff.mp hassign with ⟨behind, rfl⟩
      exact hnext behind rfl
  · cases hname

theorem readsStatement_of_statement {ts rest : List Token} {found : Statement}
    (h : s.statement ts = .ok (found, rest)) : ReadsStatement s.limit ts found rest := by
  unfold statement at h
  split at h
  · rcases bind_eq_ok.mp h with ⟨⟨value, behind⟩, hvalue, hresult⟩
    cases hresult
    refine .expression ?_ (reads_expression hvalue)
    rintro _ ⟨⟩
  · split at h
    · rename_i hword
      exact readsStatement_of_declaration hword h
    · rename_i hword
      rcases bind_eq_ok.mp h with ⟨⟨value, behind⟩, hvalue, hresult⟩
      cases hresult
      refine .expression ?_ (reads_expression hvalue)
      rintro _ ⟨⟩
      exact Bool.eq_false_iff.mpr hword

theorem readsProgram_of_statements {clock ts : List Token} {seen : List Statement}
    {program : Program} (h : s.statements clock seen ts = .ok program) :
    ∃ found, program = seen.reverse ++ found ∧ ReadsProgram s.limit ts found := by
  induction clock generalizing seen ts with
  | nil =>
      rw [statements.eq_def] at h
      split at h
      · cases h
        exact ⟨[], by simp, .nil⟩
      · cases h
      · rename_i hclock
        cases hclock
      · rename_i hclock
        cases hclock
  | cons c clock ih =>
      rw [statements.eq_def] at h
      split at h
      · cases h
        exact ⟨[], by simp, .nil⟩
      · rename_i hclock
        cases hclock
      · rename_i hclock
        cases hclock
        obtain ⟨found, rfl, hfound⟩ := ih (of_goOn_bind h)
        exact ⟨found, rfl, .semicolon hfound⟩
      · rename_i hclock
        cases hclock
        rcases bind_eq_ok.mp h with ⟨⟨first, behind⟩, hfirst, hafter⟩
        have hread := readsStatement_of_statement hfirst
        dsimp only at hafter
        split at hafter
        · cases hafter
          exact ⟨[first], by simp, .last hread⟩
        · obtain ⟨found, rfl, hfound⟩ := ih (of_goOn_bind hafter)
          exact ⟨first :: found, by simp, .statement hread hfound⟩
        · cases hafter

/-!
# What is answered
-/

theorem expression_of_reads (hend : s.atEnd = none) {room : Nat} {ts rest : List Token}
    {e : Expr} (h : Reads .expression room ts [e] rest) :
    s.expression room ts = .ok (e, rest) := by
  rcases answers_of_reads hend h with ⟨_, ⟨⟩, hread⟩
  exact hread

theorem statement_of_readsStatement (hend : s.atEnd = none) {ts rest : List Token}
    {found : Statement} (h : ReadsStatement s.limit ts found rest) :
    s.statement ts = .ok (found, rest) := by
  cases h with
  | declaration word next =>
      rw [statement, if_pos word, declaration, goOn_of_atEnd hend, ok_bind]
      dsimp only
      rw [goOn_of_atEnd hend, ok_bind]
      split
      · exact absurd rfl next
      · rfl
  | initialized word read =>
      rw [statement, if_pos word, declaration, goOn_of_atEnd hend, ok_bind]
      dsimp only
      rw [goOn_of_atEnd hend, ok_bind]
      dsimp only
      rw [goOn_of_atEnd hend, ok_bind, expression_of_reads hend read]
      rfl
  | expression next read =>
      have hanswer := expression_of_reads hend read
      obtain ⟨t, more, rfl, _⟩ := startsExpression_of_reads read rfl
      rw [statement, if_neg (Bool.eq_false_iff.mp (next t rfl)), hanswer]
      rfl

/-- Where no semicolon comes next, a statement is read and then a semicolon or the
end. -/
theorem statements_of_ne_semicolon {t : Token} (h : t ≠ .semicolon) (c : Token)
    (clock ts : List Token) (seen : List Statement) :
    s.statements (c :: clock) seen (t :: ts) = (do
      let (found, rest) ← s.statement (t :: ts)
      match rest with
      | [] => return (found :: seen).reverse
      | .semicolon :: rest =>
          let rest ← s.goOn rest
          statements s clock (found :: seen) rest
      | rest => .error (unexpected .semicolon rest)) := by
  rw [statements.eq_def]
  split
  · rename_i hnil
    cases hnil
  · rename_i hclock _
    cases hclock
  · rename_i htokens _
    cases htokens
    exact absurd rfl h
  · rename_i hclock _ _
    cases hclock
    rfl

/-- The statements are read under any clock that is long enough. -/
theorem statements_of_readsProgram (hend : s.atEnd = none) {ts : List Token}
    {program : Program} (h : ReadsProgram s.limit ts program) {clock : List Token}
    (hclock : ts.length ≤ clock.length) (seen : List Statement) :
    s.statements clock seen ts = .ok (seen.reverse ++ program) := by
  induction h generalizing clock seen with
  | nil => rw [statements, List.append_nil]
  | semicolon _ ih =>
      cases clock with
      | nil => cases hclock
      | cons c clock =>
          rw [statements, goOn_of_atEnd hend, ok_bind]
          exact ih (Nat.le_of_succ_le_succ hclock) seen
  | last read =>
      have hanswer := statement_of_readsStatement hend read
      obtain ⟨t, more, rfl, hsemicolon⟩ := exists_cons_of_readsStatement read
      cases clock with
      | nil => cases hclock
      | cons c clock =>
          rw [statements_of_ne_semicolon hsemicolon, hanswer, List.reverse_cons.symm]
          rfl
  | statement first _ ih =>
      have hanswer := statement_of_readsStatement hend first
      have hle := length_le_of_readsStatement first
      obtain ⟨t, more, rfl, hsemicolon⟩ := exists_cons_of_readsStatement first
      cases clock with
      | nil => cases hclock
      | cons c clock =>
          simp only [List.length_cons] at hle hclock
          rw [statements_of_ne_semicolon hsemicolon, hanswer, ok_bind]
          dsimp only
          rw [goOn_of_atEnd hend, ok_bind, ih (by omega), List.reverse_cons, List.append_assoc]
          rfl

end Setting

/-- No tokens are read as two programs. -/
theorem ReadsProgram.unique {room : Nat} {ts : List Token} {program other : Program}
    (h : ReadsProgram room ts program) (hother : ReadsProgram room ts other) :
    program = other := by
  have hfirst := Setting.statements_of_readsProgram (s := ⟨room, none⟩) rfl h (Nat.le_refl _) []
  have hsecond := Setting.statements_of_readsProgram (s := ⟨room, none⟩) rfl hother
    (Nat.le_refl _) []
  rw [hfirst] at hsecond
  exact Except.ok.inj hsecond

/-!
# Code
-/

theorem readsProgram_of_parse {limit : Nat} {code : String} {program : Program}
    (h : parse limit code = .ok program) : ReadsProgram limit (tokens code).1 program := by
  rcases htokens : tokens code with ⟨ts, atEnd⟩
  rw [parse, htokens] at h
  dsimp only at h
  have hstatements := Setting.of_goOn_bind h
  rcases Setting.readsProgram_of_statements hstatements with ⟨found, rfl, hfound⟩
  exact hfound

theorem parse_of_readsProgram {limit : Nat} {code : String} {ts : List Token}
    {program : Program} (htokens : tokens code = (ts, none))
    (h : ReadsProgram limit ts program) : parse limit code = .ok program := by
  rw [parse, htokens]
  dsimp only
  rw [Setting.goOn_of_atEnd rfl, Setting.ok_bind]
  exact Setting.statements_of_readsProgram rfl h (Nat.le_refl _) []

/-- Code without malformed tokens is parsed as the program that is read of its tokens. -/
theorem parse_eq_ok_iff {limit : Nat} {code : String} {ts : List Token} {program : Program}
    (htokens : tokens code = (ts, none)) :
    parse limit code = .ok program ↔ ReadsProgram limit ts program := by
  constructor
  · intro h
    have hread := readsProgram_of_parse h
    rw [htokens] at hread
    exact hread
  · intro h
    exact parse_of_readsProgram htokens h

/-- Every expression of a program was read with all of the room. -/
theorem reads_of_parse {limit : Nat} {code : String} {program : Program}
    (h : parse limit code = .ok program) {e : Expr} (he : e ∈ expressions program) :
    ∃ ts rest, Reads .expression limit ts [e] rest :=
  reads_of_readsProgram (readsProgram_of_parse h) he

theorem parse_of_reads {limit : Nat} {code : String} {t : Token} {ts : List Token} {e : Expr}
    (htokens : tokens code = (t :: ts, none))
    (hdeclaration : Setting.startsDeclaration t = false)
    (h : Reads .expression limit (t :: ts) [e] []) :
    parse limit code = .ok [.expression e] := by
  refine parse_of_readsProgram htokens (.last (.expression ?_ h))
  rintro _ ⟨⟩
  exact hdeclaration

end Script
end ComponentMarkup
