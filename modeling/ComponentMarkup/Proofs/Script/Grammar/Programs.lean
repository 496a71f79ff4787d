import Mathlib
import ComponentMarkup.Proofs.Script.Grammar.Completeness
import ComponentMarkup.Proofs.Script.Grammar.Soundness
import ComponentMarkup.Proofs.Script.Programs
import ComponentMarkup.Proofs.Script.Readings
import ComponentMarkup.Proofs.Script.Room

/-!
# Code and its program

Code is parsed exactly when its tokens derive a program, unless an expression is too
deep for the limit, and the program that they derive is the one that is parsed.  So
no tokens derive two programs.
-/

namespace ComponentMarkup
namespace Script

/-!
# Statements that are derived
-/

theorem noDeclaration_of_startsExpression {t : Token} (h : startsExpression t = true) :
    Setting.startsDeclaration t = false := by
  cases t <;> first | rfl | cases h

theorem readsStatement_of_derives {ts rest : List Token} {found : Statement}
    (h : DerivesStatement ts found) {room : Nat} (hroom : ts.length ≤ room)
    (hrest : ∀ t ∈ rest.head?, t = .semicolon) : ReadsStatement room (ts ++ rest) found rest := by
  have hends : Ends rest := by
    cases rest with
    | nil => exact ends_nil
    | cons t more =>
        rw [hrest t rfl]
        exact ends_of_isClosing rfl more
  cases h with
  | declaration name word =>
      refine .declaration (startsDeclaration_iff.mpr word) ?_
      intro hassign
      cases hrest _ hassign
  | initialized name word value =>
      simp only [List.length_cons] at hroom
      exact .initialized (startsDeclaration_iff.mpr word)
        (isRead_of_derives value room rest (by omega) hends)
  | expression phrase =>
      have hread := isRead_of_derives phrase room rest hroom hends
      refine .expression ?_ hread
      obtain ⟨t, more, hcons, hstart⟩ := startsExpression_of_reads hread rfl
      rw [hcons]
      rintro _ ⟨⟩
      exact noDeclaration_of_startsExpression hstart

/-!
# Programs that are derived
-/

theorem readsProgram_of_derives {ts : List Token} {program : Program}
    (h : DerivesProgram ts program) {room : Nat} (hroom : ts.length ≤ room) :
    ReadsProgram room ts program := by
  induction h with
  | nil => exact .nil
  | semicolon _ ih => exact .semicolon (ih (Nat.le_of_succ_le hroom))
  | @last ts found statement =>
      have hread : ReadsStatement room (ts ++ []) found [] :=
        readsStatement_of_derives statement hroom (by simp)
      rw [List.append_nil] at hread
      exact .last hread
  | statement first _ ih =>
      rw [List.length_append, List.length_cons] at hroom
      exact .statement (readsStatement_of_derives first (by omega) (by simp)) (ih (by omega))

/-- No tokens derive two programs. -/
theorem derivesProgram_unique {ts : List Token} {program other : Program}
    (h : DerivesProgram ts program) (hother : DerivesProgram ts other) : program = other :=
  (readsProgram_of_derives h (Nat.le_refl _)).unique
    (readsProgram_of_derives hother (Nat.le_refl _))

/-- The tokens of code that is parsed derive its program. -/
theorem derivesProgram_of_parse {limit : Nat} {code : String} {program : Program}
    (h : parse limit code = .ok program) :
    ∃ ts, tokens code = (ts, none) ∧ DerivesProgram ts program := by
  obtain ⟨ts, htokens⟩ := tokens_of_parse h
  have hread := (parse_eq_ok_iff htokens).mp h
  exact ⟨ts, htokens, derivesProgram_of_readsProgram hread⟩

/-- Where the limit is at least the number of tokens, the program that they derive is
parsed. -/
theorem parse_of_derivesProgram {limit : Nat} {code : String} {ts : List Token}
    {program : Program} (htokens : tokens code = (ts, none)) (h : DerivesProgram ts program)
    (hlimit : ts.length ≤ limit) : parse limit code = .ok program :=
  parse_of_readsProgram htokens (readsProgram_of_derives h hlimit)

/-- Unless an expression is too deep for the limit, code is parsed as a program exactly
when all its tokens are well-formed and derive that program.  No tokens derive two
programs. -/
theorem parse_grammar :
    (∀ limit code, parse limit code ≠ .error (.tooDeep limit) →
      ∀ program, parse limit code = .ok program ↔
        ∃ ts, (lexemes code).1.map Lexeme.reading = ts.map .ok ∧ DerivesProgram ts program) ∧
      ∀ ts program other, DerivesProgram ts program → DerivesProgram ts other →
        program = other := by
  constructor
  · intro limit code hroom program
    constructor
    · intro h
      rcases derivesProgram_of_parse h with ⟨ts, htokens, hderives⟩
      exact ⟨ts, tokens_eq_iff.mp htokens, hderives⟩
    · intro h
      rcases h with ⟨ts, hreadings, hderives⟩
      have hmore : parse (max limit ts.length) code = .ok program :=
        parse_of_derivesProgram (tokens_eq_iff.mpr hreadings) hderives (Nat.le_max_right _ _)
      rcases settles_parse (Nat.le_max_left limit ts.length) code with hdeep | ⟨hsame, _⟩
      · exact absurd hdeep hroom
      · rw [hsame]
        exact hmore
  · intro ts program other h hother
    exact derivesProgram_unique h hother

/-- Code with all that can stand behind an operand, a comma behind arguments and more
semicolons than it needs. -/
def sampleCode : String :=
  "let v = !f(a, b.c,) ? (d) : e['g'];; v + -v * v;"

def sampleProgram : Program :=
  [.declare "v" (some (.conditional
      (.unary .not (.call (.identifier "f")
        [.identifier "a", .member (.identifier "b") "c"]))
      (.identifier "d") (.index (.identifier "e") (.string "g")))),
    .expression (.binary .add (.identifier "v")
      (.binary .multiply (.unary .negate (.identifier "v")) (.identifier "v")))]

theorem parse_grammar_sampleCode :
    parse 5 sampleCode ≠ .error (.tooDeep 5) ∧
      ∃ ts, (lexemes sampleCode).1.map Lexeme.reading = ts.map .ok ∧
        DerivesProgram ts sampleProgram := by
  have hparse : parse 5 sampleCode = .ok sampleProgram := by
    cbv
  have hroom : parse 5 sampleCode ≠ .error (.tooDeep 5) := by
    rw [hparse]
    intro h
    cases h
  exact ⟨hroom, (parse_grammar.1 5 sampleCode hroom sampleProgram).mp hparse⟩

end Script
end ComponentMarkup
