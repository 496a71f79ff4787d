import Mathlib.Data.List.Chain
import ComponentMarkup.Markup.Token
import ComponentMarkup.Markup.Statement
import ComponentMarkup.Registry.Basic

/-!
# Statements and their source

Statements are written as the tokens they stand for.  An invocation begins with
`![` and its name, each of its arguments follows behind `][`, and it ends with
`]!`.
-/

namespace ComponentMarkup
namespace Markup
namespace Statement

/-!
# Equality of statements
-/

mutual

def decideEq : (s other : Statement) → Decidable (s = other)
  | .text content, .text content' => decidable_of_iff (content = content') (by simp)
  | .text _, .invocation _ _ => isFalse (by simp)
  | .invocation _ _, .text _ => isFalse (by simp)
  | .invocation name arguments, .invocation name' arguments' =>
      have := decideEqArguments arguments arguments'
      decidable_of_iff (name = name' ∧ arguments = arguments') (by simp)

def decideEqArguments :
    (arguments others : List (List Statement)) → Decidable (arguments = others)
  | [], [] => isTrue rfl
  | [], _ :: _ => isFalse (by simp)
  | _ :: _, [] => isFalse (by simp)
  | argument :: rest, other :: others =>
      have := decideEqAll argument other
      have := decideEqArguments rest others
      decidable_of_iff (argument = other ∧ rest = others) (by simp)

def decideEqAll : (statements others : List Statement) → Decidable (statements = others)
  | [], [] => isTrue rfl
  | [], _ :: _ => isFalse (by simp)
  | _ :: _, [] => isFalse (by simp)
  | s :: rest, other :: others =>
      have := s.decideEq other
      have := decideEqAll rest others
      decidable_of_iff (s = other ∧ rest = others) (by simp)

end

instance : DecidableEq Statement :=
  decideEq

/-!
# Induction on statements
-/

/-- What holds of the arguments of an invocation may be used for the invocation. -/
theorem listInduction {motive : List Statement → Prop} (nil : motive [])
    (text : ∀ content rest, motive rest → motive (.text content :: rest))
    (invocation : ∀ name arguments rest, (∀ argument ∈ arguments, motive argument) →
      motive rest → motive (.invocation name arguments :: rest))
    (statements : List Statement) : motive statements :=
  @Statement.rec_2 (fun s => ∀ rest, motive rest → motive (s :: rest))
    (fun arguments => ∀ argument ∈ arguments, motive argument) motive
    text (fun name arguments harguments rest => invocation name arguments rest harguments)
    (by simp) (fun _ _ hfirst hrest => List.forall_mem_cons.mpr ⟨hfirst, hrest⟩)
    nil (fun _ rest hs hrest => hs rest hrest) statements

/-!
# Writing statements
-/

mutual

def tokens : Statement → List Token
  | .text content => content.toList.map .char
  | .invocation name arguments =>
      .opening :: (name.toList.map .char ++ tokensOfArguments arguments ++ [.closing])

/-- The tokens of arguments, each behind a separator. -/
def tokensOfArguments : List (List Statement) → List Token
  | [] => []
  | argument :: rest => .separator :: (tokensOfAll argument ++ tokensOfArguments rest)

def tokensOfAll : List Statement → List Token
  | [] => []
  | s :: rest => s.tokens ++ tokensOfAll rest

end

/-- The characters of a list of statements as they are written. -/
def source (statements : List Statement) : List Char :=
  (tokensOfAll statements).flatMap Token.source

def sourceOfArguments (arguments : List (List Statement)) : List Char :=
  (tokensOfArguments arguments).flatMap Token.source

theorem flatMap_source_map_char (cs : List Char) :
    (cs.map Token.char).flatMap Token.source = cs := by
  induction cs with
  | nil => rfl
  | cons c rest ih =>
      rw [List.map_cons, List.flatMap_cons, ih]
      rfl

@[simp] theorem source_nil : source [] = [] := rfl

@[simp] theorem source_text_cons (content : String) (rest : List Statement) :
    source (.text content :: rest) = content.toList ++ source rest := by
  simp [source, tokensOfAll, tokens, flatMap_source_map_char]

@[simp] theorem source_invocation_cons (name : String) (arguments : List (List Statement))
    (rest : List Statement) :
    source (.invocation name arguments :: rest) =
      '!' :: '[' :: (name.toList ++ sourceOfArguments arguments ++ ']' :: '!' :: source rest) := by
  simp [source, sourceOfArguments, tokensOfAll, tokens, flatMap_source_map_char, Token.source]

@[simp] theorem sourceOfArguments_nil : sourceOfArguments [] = [] := rfl

@[simp] theorem sourceOfArguments_cons (argument : List Statement)
    (rest : List (List Statement)) :
    sourceOfArguments (argument :: rest) =
      ']' :: '[' :: (source argument ++ sourceOfArguments rest) := by
  simp [source, sourceOfArguments, tokensOfArguments, Token.source]

theorem tokensOfAll_append (statements others : List Statement) :
    tokensOfAll (statements ++ others) = tokensOfAll statements ++ tokensOfAll others := by
  induction statements with
  | nil => rfl
  | cons s rest ih => simp [tokensOfAll, ih]

@[simp] theorem source_append (statements others : List Statement) :
    source (statements ++ others) = source statements ++ source others := by
  simp [source, tokensOfAll_append]

theorem tokensOfArguments_append (arguments others : List (List Statement)) :
    tokensOfArguments (arguments ++ others) =
      tokensOfArguments arguments ++ tokensOfArguments others := by
  induction arguments with
  | nil => rfl
  | cons argument rest ih => simp [tokensOfArguments, ih]

@[simp] theorem sourceOfArguments_append (arguments others : List (List Statement)) :
    sourceOfArguments (arguments ++ others) =
      sourceOfArguments arguments ++ sourceOfArguments others := by
  simp [sourceOfArguments, tokensOfArguments_append]

/-!
# Statements at any depth
-/

mutual

/-- A statement and the statements inside it, in the order in which they begin. -/
def within : Statement → List Statement
  | .text content => [.text content]
  | .invocation name arguments => .invocation name arguments :: withinArguments arguments

def withinArguments : List (List Statement) → List Statement
  | [] => []
  | argument :: rest => withinAll argument ++ withinArguments rest

def withinAll : List Statement → List Statement
  | [] => []
  | s :: rest => s.within ++ withinAll rest

end

theorem mem_withinAll {x : Statement} {statements : List Statement} :
    x ∈ withinAll statements ↔ ∃ s ∈ statements, x ∈ s.within := by
  induction statements with
  | nil => simp [withinAll]
  | cons s rest ih => simp [withinAll, ih]

theorem mem_withinArguments {x : Statement} {arguments : List (List Statement)} :
    x ∈ withinArguments arguments ↔ ∃ argument ∈ arguments, x ∈ withinAll argument := by
  induction arguments with
  | nil => simp [withinArguments]
  | cons argument rest ih => simp [withinArguments, ih]

/-!
# The nesting of invocations
-/

mutual

/-- How many invocations are nested in a statement. -/
def depth : Statement → Nat
  | .text _ => 0
  | .invocation _ arguments => depthOfArguments arguments + 1

def depthOfArguments : List (List Statement) → Nat
  | [] => 0
  | argument :: rest => max (depthOfAll argument) (depthOfArguments rest)

def depthOfAll : List Statement → Nat
  | [] => 0
  | s :: rest => max s.depth (depthOfAll rest)

end

theorem depthOfAll_le {statements : List Statement} {bound : Nat} :
    depthOfAll statements ≤ bound ↔ ∀ s ∈ statements, s.depth ≤ bound := by
  induction statements with
  | nil => simp [depthOfAll]
  | cons s rest ih => rw [depthOfAll, Nat.max_le, ih, List.forall_mem_cons]

theorem depthOfArguments_le {arguments : List (List Statement)} {bound : Nat} :
    depthOfArguments arguments ≤ bound ↔
      ∀ argument ∈ arguments, depthOfAll argument ≤ bound := by
  induction arguments with
  | nil => simp [depthOfArguments]
  | cons argument rest ih => rw [depthOfArguments, Nat.max_le, ih, List.forall_mem_cons]

theorem depthOfAll_reverse (statements : List Statement) :
    depthOfAll statements.reverse = depthOfAll statements := by
  have hle : ∀ others : List Statement, depthOfAll others.reverse ≤ depthOfAll others := by
    intro others
    rw [depthOfAll_le]
    intro s hs
    exact depthOfAll_le.mp (Nat.le_refl _) s (List.mem_reverse.mp hs)
  apply Nat.le_antisymm
  · exact hle statements
  · have hback := hle statements.reverse
    rw [List.reverse_reverse] at hback
    exact hback

theorem depthOfArguments_reverse (arguments : List (List Statement)) :
    depthOfArguments arguments.reverse = depthOfArguments arguments := by
  have hle : ∀ others : List (List Statement),
      depthOfArguments others.reverse ≤ depthOfArguments others := by
    intro others
    rw [depthOfArguments_le]
    intro argument hargument
    exact depthOfArguments_le.mp (Nat.le_refl _) argument (List.mem_reverse.mp hargument)
  apply Nat.le_antisymm
  · exact hle arguments
  · have hback := hle arguments.reverse
    rw [List.reverse_reverse] at hback
    exact hback

theorem depthOfAll_cons_add_le {s : Statement} {rest : List Statement} {nesting limit : Nat} :
    depthOfAll (s :: rest) + nesting ≤ limit ↔
      s.depth + nesting ≤ limit ∧ depthOfAll rest + nesting ≤ limit := by
  rw [depthOfAll]
  omega

theorem depthOfArguments_cons_add_le {argument : List Statement}
    {rest : List (List Statement)} {nesting limit : Nat} :
    depthOfArguments (argument :: rest) + nesting ≤ limit ↔
      depthOfAll argument + nesting ≤ limit ∧ depthOfArguments rest + nesting ≤ limit := by
  rw [depthOfArguments]
  omega

/-!
# Texts side by side
-/

def isText : Statement → Bool
  | .text _ => true
  | .invocation _ _ => false

/-- No two texts of a list stand side by side. -/
def TextsApart (statements : List Statement) : Prop :=
  statements.IsChain fun s next => ¬ (s.isText = true ∧ next.isText = true)

theorem textsApart_nil : TextsApart [] :=
  List.IsChain.nil

theorem textsApart_reverse {statements : List Statement} (h : TextsApart statements) :
    TextsApart statements.reverse := by
  unfold TextsApart at h ⊢
  rw [List.isChain_reverse]
  exact h.imp fun s next hpair hswapped => hpair ⟨hswapped.2, hswapped.1⟩

theorem textsApart_of_text_cons {content other : String} {statements : List Statement}
    (h : TextsApart (.text content :: statements)) : TextsApart (.text other :: statements) := by
  cases statements with
  | nil => exact List.IsChain.singleton _
  | cons next rest => exact List.IsChain.cons_cons h.rel h.tail

end Statement
end Markup
end ComponentMarkup
