import ComponentMarkup.Markup.Parse
import ComponentMarkup.Proofs.Text.LowerCase

/-!
# Names of components

A component's name in lower case has small ASCII letters, digits and `_` only, and
lower-casing leaves it as it is.  In a row of tokens a name is the run of
characters behind an opening sequence.
-/

namespace ComponentMarkup
namespace Markup

/-!
# Names in lower case
-/

/-- Whether a character is one of `a` to `z`, `0` to `9` and `_`. -/
def isLowerWordChar (c : Char) : Bool :=
  c.isLower || c.isDigit || c == '_'

/-- Whether a text is a component's name in lower case. -/
def IsLowerName (name : String) : Prop :=
  name ≠ "" ∧ ∀ c ∈ name.toList, isLowerWordChar c = true

instance (name : String) : Decidable (IsLowerName name) :=
  decidable_of_iff (name ≠ "" ∧ name.toList.all isLowerWordChar = true)
    (by rw [List.all_eq_true, IsLowerName])

theorem isLowerWordChar_of_isWordChar {c : Char} (hword : isWordChar c = true)
    (hupper : c.isUpper = false) : isLowerWordChar c = true := by
  have hclasses : isWordChar c = (c.isUpper || c.isLower || c.isDigit || c == '_') := rfl
  rw [hclasses, hupper, Bool.false_or] at hword
  exact hword

theorem isWordChar_of_isLowerWordChar {c : Char} (h : isLowerWordChar c = true) :
    isWordChar c = true := by
  have hclasses : isWordChar c = (c.isUpper || c.isLower || c.isDigit || c == '_') := rfl
  rw [isLowerWordChar] at h
  rw [hclasses, Bool.or_assoc c.isUpper, Bool.or_assoc c.isUpper, h, Bool.or_true]

theorem isLowerName_lowercase {s : String} (h : isComponentName (Text.lowercase s) = true) :
    IsLowerName (Text.lowercase s) := by
  simp only [isComponentName, Bool.and_eq_true, Bool.not_eq_true', List.all_eq_true] at h
  constructor
  · intro hempty
    rw [hempty] at h
    cases h.1
  · intro c hc
    exact isLowerWordChar_of_isWordChar (h.2 c hc) (Text.isUpper_of_mem_lowercase hc)

theorem isComponentName_of_isLowerName {name : String} (h : IsLowerName name) :
    isComponentName name = true := by
  simp only [isComponentName, Bool.and_eq_true, Bool.not_eq_true', List.all_eq_true]
  constructor
  · rw [Bool.eq_false_iff]
    intro hempty
    exact h.1 (String.isEmpty_iff.mp hempty)
  · intro c hc
    exact isWordChar_of_isLowerWordChar (h.2 c hc)

theorem isAscii_of_isLowerWordChar {c : Char} (h : isLowerWordChar c = true) :
    Text.isAscii c = true ∧ c.isUpper = false := by
  have hrange : (97 ≤ c.toNat ∧ c.toNat ≤ 122) ∨ (48 ≤ c.toNat ∧ c.toNat ≤ 57) ∨
      c.toNat = 95 := by
    simp only [isLowerWordChar, Bool.or_eq_true, beq_iff_eq] at h
    rcases h with (hlower | hdigit) | hline
    · obtain ⟨hlow, hhigh⟩ := Bool.and_eq_true_iff.mp hlower
      exact Or.inl ⟨of_decide_eq_true hlow, of_decide_eq_true hhigh⟩
    · obtain ⟨hlow, hhigh⟩ := Bool.and_eq_true_iff.mp hdigit
      exact Or.inr (Or.inl ⟨of_decide_eq_true hlow, of_decide_eq_true hhigh⟩)
    · exact Or.inr (Or.inr (congrArg Char.toNat hline))
  constructor
  · simp only [Text.isAscii, decide_eq_true_eq]
    omega
  · rw [Bool.eq_false_iff]
    intro hupper
    rw [Text.isUpper_iff] at hupper
    omega

theorem lowercase_of_isLowerName {name : String} (h : IsLowerName name) :
    Text.lowercase name = name :=
  Text.lowercase_of_not_isUpper fun c hc => isAscii_of_isLowerWordChar (h.2 c hc)

/-- A few components to show statements at work. -/
def sampleRegistry : Registry :=
  Registry.ofComponents [
    { name := "greet", parameters := ["who"], html := "Hello ${who}!", style := "b\x7b\x7d" },
    { name := "Pair", parameters := ["a", "b"], html := "[${a}|${b}|${a}]" },
    { name := "shout", parameters := ["who"], html := "${eval:who.toUpperCase()}!" },
    { name := "hr", parameters := [], html := "<hr>" }]

/-!
# Names in a row of tokens
-/

/-- The characters in front of the first control sequence. -/
def nameRun : List Token → List Char
  | .char c :: rest => c :: nameRun rest
  | _ => []

/-- A token goes on with a name or ends it. -/
theorem Token.letter_or_mark (t : Token) : (∃ c, t = .char c) ∨ ∀ c, t ≠ .char c := by
  cases t with
  | char c => exact Or.inl ⟨c, rfl⟩
  | opening => exact Or.inr fun c h => (by cases h)
  | separator => exact Or.inr fun c h => (by cases h)
  | closing => exact Or.inr fun c h => (by cases h)

theorem nameRun_nil : nameRun [] = [] := rfl

theorem nameRun_mark {t : Token} (ht : ∀ c, t ≠ .char c) (rest : List Token) :
    nameRun (t :: rest) = [] := by
  cases t with
  | char c => exact absurd rfl (ht c)
  | opening => rfl
  | separator => rfl
  | closing => rfl

/-- The tokens from the first control sequence on. -/
def behindName : List Token → List Token
  | .char _ :: rest => behindName rest
  | tokens => tokens

theorem length_behindName_le (tokens : List Token) :
    (behindName tokens).length ≤ tokens.length := by
  fun_induction behindName tokens with
  | case1 c rest ih => exact Nat.le_succ_of_le ih
  | case2 tokens => exact Nat.le_refl tokens.length

/-- The source of some tokens, with every name in lower case. -/
def loweredSource : List Token → List Char
  | [] => []
  | .opening :: rest =>
      '!' :: '[' :: ((Text.lowercase (String.ofList (nameRun rest))).toList ++
        loweredSource (behindName rest))
  | t :: rest => t.source ++ loweredSource rest
termination_by tokens => tokens.length
decreasing_by
  · exact Nat.lt_succ_of_le (length_behindName_le rest)
  · exact Nat.lt_succ_self rest.length

theorem loweredSource_cons {t : Token} (h : t ≠ .opening) (rest : List Token) :
    loweredSource (t :: rest) = t.source ++ loweredSource rest := by
  rw [loweredSource]
  exact h

end Markup
end ComponentMarkup
