import ComponentMarkup.Proofs.Script.Grammar
import ComponentMarkup.Proofs.Script.Programs

/-!
# What is read is grammatical

The tokens that a reader takes derive what it reads.
-/

namespace ComponentMarkup
namespace Script

/-!
# Expressions
-/

/-- What the tokens that a reader took derive.  The rest of a chain is a phrase
together with any tokens in front that derive its first operand. -/
def Reader.Accounts : Reader → List Token → List Expr → Prop
  | .expression, used, es => Derives .expression used es
  | .chain p, used, es => Derives (.chain p) used es
  | .chainFrom p left, used, es =>
      ∀ before, Derives (.chain p) before [left] → Derives (.chain p) (before ++ used) es
  | .operand p, used, es => Derives p.operandPhrase used es
  | .unary, used, es => Derives .unary used es
  | .applied, used, es => Derives .applied used es
  | .appliedFrom e, used, es =>
      ∀ before, Derives .applied before [e] → Derives .applied (before ++ used) es
  | .arguments seen, used, es =>
      ∃ ts found, used = ts ++ [.rightParen] ∧ es = seen.reverse ++ found ∧
        Derives .arguments ts found
  | .primary, used, es => Derives .primary used es

/-- One more argument in front of others, behind which a comma may stand. -/
theorem derives_arguments_cons {ts us : List Token} {e : Expr} {es : List Expr}
    (hfirst : Derives .expression ts [e]) (h : Derives .arguments us es) :
    Derives .arguments (ts ++ .comma :: us) (e :: es) := by
  cases h with
  | noArguments => exact .argumentsComma (.lastOfRow hfirst)
  | arguments phrase => exact .arguments (.row hfirst phrase)
  | argumentsComma phrase =>
      have hrow := Derives.argumentsComma (.row hfirst phrase)
      rw [List.append_assoc] at hrow
      exact hrow

theorem accounts_of_reads {r : Reader} {room : Nat} {ts rest : List Token} {es : List Expr}
    (h : Reads r room ts es rest) : ∃ used, ts = used ++ rest ∧ r.Accounts used es := by
  induction h with
  | bare _ _ ih =>
      obtain ⟨used, rfl, hused⟩ := ih
      exact ⟨used, rfl, .bare hused⟩
  | conditional _ _ _ ihTest ihConsequent ihAlternate =>
      obtain ⟨test, rfl, htest⟩ := ihTest
      obtain ⟨consequent, rfl, hconsequent⟩ := ihConsequent
      obtain ⟨alternate, rfl, halternate⟩ := ihAlternate
      exact ⟨_, by simp, .conditional htest hconsequent halternate⟩
  | chain _ _ ihLeft ihRest =>
      obtain ⟨left, rfl, hleft⟩ := ihLeft
      obtain ⟨used, rfl, hused⟩ := ihRest
      exact ⟨left ++ used, by simp, hused left (.operand hleft)⟩
  | chainEnd =>
      refine ⟨[], rfl, fun before hbefore => ?_⟩
      rw [List.append_nil]
      exact hbefore
  | @chainStep p left room t combine ts right behind e rest operator _ _ ihRight ihRest =>
      obtain ⟨right, rfl, hright⟩ := ihRight
      obtain ⟨used, rfl, hused⟩ := ihRest
      refine ⟨t :: (right ++ used), by simp, fun before hbefore => ?_⟩
      have hstep := Derives.operation (operator?_eq_some.mp operator) hbefore hright
      have hall := hused _ hstep
      rw [List.append_assoc, List.cons_append] at hall
      exact hall
  | tighter level _ ih =>
      obtain ⟨used, rfl, hused⟩ := ih
      refine ⟨used, rfl, ?_⟩
      rw [Reader.Accounts, operandPhrase_of_tighter? level]
      exact hused
  | tightest level _ ih =>
      obtain ⟨used, rfl, hused⟩ := ih
      refine ⟨used, rfl, ?_⟩
      rw [Reader.Accounts, operandPhrase_of_tightest level]
      exact hused
  | @unary room t op ts e rest operator _ ih =>
      obtain ⟨used, rfl, hused⟩ := ih
      exact ⟨t :: used, rfl, .unary (unaryOp?_eq_some.mp operator) hused⟩
  | noUnary _ _ ih =>
      obtain ⟨used, rfl, hused⟩ := ih
      exact ⟨used, rfl, .noUnary hused⟩
  | applied _ _ ihFirst ihRest =>
      obtain ⟨first, rfl, hfirst⟩ := ihFirst
      obtain ⟨used, rfl, hused⟩ := ihRest
      exact ⟨first ++ used, by simp, hused first (.noApplied hfirst)⟩
  | appliedEnd =>
      refine ⟨[], rfl, fun before hbefore => ?_⟩
      rw [List.append_nil]
      exact hbefore
  | @member e property room ts result rest _ ih =>
      obtain ⟨used, rfl, hused⟩ := ih
      refine ⟨.dot :: .identifier property :: used, rfl, fun before hbefore => ?_⟩
      have hall := hused _ (Derives.member hbefore)
      rw [List.append_assoc] at hall
      exact hall
  | index _ _ ihIndex ihRest =>
      obtain ⟨inside, rfl, hinside⟩ := ihIndex
      obtain ⟨used, rfl, hused⟩ := ihRest
      refine ⟨.leftBracket :: (inside ++ .rightBracket :: used), by simp,
        fun before hbefore => ?_⟩
      have hall := hused _ (Derives.index hbefore hinside)
      simp only [List.append_assoc, List.cons_append, List.nil_append] at hall
      exact hall
  | call _ _ ihArguments ihRest =>
      obtain ⟨_, rfl, inside, found, rfl, rfl, hinside⟩ := ihArguments
      obtain ⟨used, rfl, hused⟩ := ihRest
      refine ⟨.leftParen :: (inside ++ .rightParen :: used), by simp,
        fun before hbefore => ?_⟩
      have hall := hused _ (Derives.call hbefore hinside)
      simp only [List.append_assoc, List.cons_append, List.nil_append] at hall
      exact hall
  | argumentsEnd =>
      exact ⟨[.rightParen], rfl, [], [], rfl, by simp, .noArguments⟩
  | @argument seen room ts e behind arguments rest _ _ ih ihRest =>
      obtain ⟨first, rfl, hfirst⟩ := ih
      obtain ⟨_, rfl, others, found, rfl, rfl, hothers⟩ := ihRest
      refine ⟨first ++ .comma :: (others ++ [.rightParen]), by simp,
        first ++ .comma :: others, e :: found, by simp, by simp, ?_⟩
      exact derives_arguments_cons hfirst hothers
  | @lastArgument seen room ts e rest _ ih =>
      obtain ⟨used, rfl, hused⟩ := ih
      exact ⟨used ++ [.rightParen], by simp, used, [e], rfl, by simp,
        .arguments (.lastOfRow hused)⟩
  | parentheses _ ih =>
      obtain ⟨used, rfl, hused⟩ := ih
      exact ⟨.leftParen :: (used ++ [Token.rightParen]), by simp, .parentheses hused⟩
  | literal token => exact ⟨_, rfl, .literal (literal?_eq_some.mp token)⟩

/-!
# Programs
-/

theorem derivesStatement_of_readsStatement {room : Nat} {ts rest : List Token}
    {found : Statement} (h : ReadsStatement room ts found rest) :
    ∃ used, ts = used ++ rest ∧ DerivesStatement used found := by
  cases h with
  | @declaration t name _ word next =>
      exact ⟨[t, .identifier name], rfl, .declaration name (startsDeclaration_iff.mp word)⟩
  | @initialized t name _ e _ word read =>
      obtain ⟨used, rfl, hused⟩ := accounts_of_reads read
      exact ⟨t :: .identifier name :: .assign :: used, rfl,
        .initialized name (startsDeclaration_iff.mp word) hused⟩
  | expression next read =>
      obtain ⟨used, hsplit, hused⟩ := accounts_of_reads read
      exact ⟨used, hsplit, .expression hused⟩

theorem derivesProgram_of_readsProgram {room : Nat} {ts : List Token} {program : Program}
    (h : ReadsProgram room ts program) : DerivesProgram ts program := by
  induction h with
  | nil => exact .nil
  | semicolon _ ih => exact .semicolon ih
  | last read =>
      obtain ⟨used, rfl, hused⟩ := derivesStatement_of_readsStatement read
      rw [List.append_nil]
      exact .last hused
  | statement first _ ih =>
      obtain ⟨used, rfl, hused⟩ := derivesStatement_of_readsStatement first
      exact .statement hused ih

end Script
end ComponentMarkup
