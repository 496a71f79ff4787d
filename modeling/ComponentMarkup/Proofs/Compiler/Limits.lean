import ComponentMarkup.Proofs.Compiler.Documents
import ComponentMarkup.Proofs.Markup.Limits

/-!
# Compiling under smaller limits

Smaller limits only refuse texts.  A text with too many tokens is refused before anything
else, then a text whose invocations nest too deep, and any other text is compiled as it is
under the greater limits.
-/

namespace ComponentMarkup
namespace Compiler

open Markup (Statement Token)

/-- The same compiler under other limits. -/
def withLimits (c : Compiler) (tokenLimit nestingLimit : Nat) : Compiler :=
  { c with tokenLimit := tokenLimit, nestingLimit := nestingLimit }

variable {c : Compiler} {tokenLimit nestingLimit : Nat}

/-- Behind the statements of a text nothing fails because of its tokens. -/
theorem documentOf_ne_ofScan (c : Compiler) (statements : List Statement)
    (cause : Markup.ScanError) : c.documentOf statements ≠ .error (.ofScan cause) := by
  unfold documentOf
  split
  · intro h
    cases h
  · intro h
    cases h

theorem compile_eq_tooManyTokens {text : String} :
    c.compile text = .error (.ofScan (.tooManyTokens c.tokenLimit)) ↔
      c.tokenLimit < (Token.scan text.toList).length := by
  rw [compile_eq]
  constructor
  · intro h
    apply Nat.lt_of_not_le
    intro hle
    rw [statements_of_le hle] at h
    cases hparse : Markup.parse c.registry c.nestingLimit (Token.scan text.toList) with
    | error cause =>
        rw [hparse] at h
        cases h
    | ok statements =>
        rw [hparse] at h
        exact documentOf_ne_ofScan c statements _ h
  · intro h
    rw [statements_of_lt h]
    rfl

theorem compile_withLimits_of_le (htokens : tokenLimit ≤ c.tokenLimit)
    (hnesting : nestingLimit ≤ c.nestingLimit) {text : String}
    (h : (Token.scan text.toList).length ≤ tokenLimit) :
    (c.withLimits tokenLimit nestingLimit).compile text =
        .error (.ofParse (.nestingTooDeep nestingLimit)) ∨
      (c.withLimits tokenLimit nestingLimit).compile text = c.compile text := by
  have hmore : (Token.scan text.toList).length ≤ c.tokenLimit := Nat.le_trans h htokens
  have hstatements : (c.withLimits tokenLimit nestingLimit).statements text =
      (Markup.parse c.registry nestingLimit (Token.scan text.toList)).mapError .ofParse :=
    statements_of_le h
  rw [compile_eq, compile_eq, hstatements, statements_of_le hmore]
  rcases Markup.limitedBy_parse hnesting (Token.scan text.toList) with hexceeded | hsame
  · apply Or.inl
    rw [hexceeded]
    rfl
  · apply Or.inr
    rw [hsame]
    rfl

/-- Under smaller limits a text is refused for its tokens just where there are too many of
them.  Otherwise it is refused because its invocations nest too deep, or compiled as it is
under the greater limits.  Tokens that are parsed under the greater limit on nesting are
parsed alike where their statements meet the smaller one, and refused elsewhere. -/
theorem compile_withLimits (htokens : tokenLimit ≤ c.tokenLimit)
    (hnesting : nestingLimit ≤ c.nestingLimit) (text : String) :
    ((c.withLimits tokenLimit nestingLimit).compile text =
          .error (.ofScan (.tooManyTokens tokenLimit)) ↔
        tokenLimit < (Token.scan text.toList).length) ∧
      ((Token.scan text.toList).length ≤ tokenLimit →
        (c.withLimits tokenLimit nestingLimit).compile text =
            .error (.ofParse (.nestingTooDeep nestingLimit)) ∨
          (c.withLimits tokenLimit nestingLimit).compile text = c.compile text) ∧
      ∀ tokens statements, Markup.parse c.registry c.nestingLimit tokens = .ok statements →
        Markup.parse c.registry nestingLimit tokens =
          if Statement.depthOfAll statements ≤ nestingLimit then .ok statements
          else .error (.nestingTooDeep nestingLimit) := by
  constructor
  · exact compile_eq_tooManyTokens
  · constructor
    · exact compile_withLimits_of_le htokens hnesting
    · intro tokens statements h
      exact Markup.parse_of_parse hnesting h

/-- The second invocation stands beside the first one, and the third one inside it. -/
theorem compile_withLimits_beside :
    (11 ≤ 100 ∧ 1 ≤ 2) ∧
      Markup.parse styledRegistry 1 (Token.scan "![hr]!![em][a]!".toList) =
        .ok [.invocation "hr" [], .invocation "em" [[.text "a"]]] ∧
      Markup.parse styledRegistry 1 (Token.scan "![em][![hr]!]!".toList) =
        .error (.nestingTooDeep 1) ∧
      Compiler.compile ⟨styledRegistry, Script.evaluator 8, 11, 1⟩ "![em][![hr]!]! and more" =
        .error (.ofScan (.tooManyTokens 11)) := by
  have hlimits := @compile_withLimits ⟨styledRegistry, Script.evaluator 8, 100, 2⟩ 11 1
    (by decide) (by decide)
  have hbeside : Markup.parse styledRegistry 2 (Token.scan "![hr]!![em][a]!".toList) =
      .ok [.invocation "hr" [], .invocation "em" [[.text "a"]]] := by
    decide +kernel
  have hinside : Markup.parse styledRegistry 2 (Token.scan "![em][![hr]!]!".toList) =
      .ok [.invocation "em" [[.invocation "hr" []]]] := by
    decide +kernel
  constructor
  · decide
  · constructor
    · exact (hlimits "").2.2 _ _ hbeside
    · constructor
      · exact (hlimits "").2.2 _ _ hinside
      · exact (hlimits "![em][![hr]!]! and more").1.mpr (by decide +kernel)

end Compiler
end ComponentMarkup
