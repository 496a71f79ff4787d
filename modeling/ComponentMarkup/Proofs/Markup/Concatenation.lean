import ComponentMarkup.Proofs.Markup.Invocations

/-!
# Reading one row of tokens behind another

Tokens that are read behind complete statements are read as they are on their own: the
two readings fail alike, and otherwise the second one extends the statements of the
first.  Only a text may be shared by both sides of the border, so the statements are
compared letter by letter.
-/

namespace ComponentMarkup

/-- Two computations that fail with the same error, or give related results. -/
inductive FailAlike {ε α β : Type} (related : α → β → Prop) : Except ε α → Except ε β → Prop where
  | error (cause : ε) : FailAlike related (.error cause) (.error cause)
  | ok {a : α} {b : β} (results : related a b) : FailAlike related (.ok a) (.ok b)

theorem FailAlike.eq_error {ε α β : Type} {related : α → β → Prop} {cause : ε}
    {y : Except ε β} (h : FailAlike related (.error cause) y) : y = .error cause := by
  cases h
  rfl

theorem FailAlike.exists_ok {ε α β : Type} {related : α → β → Prop} {a : α}
    {y : Except ε β} (h : FailAlike related (.ok a) y) : ∃ b, y = .ok b ∧ related a b := by
  cases h with
  | ok results => exact ⟨_, rfl, results⟩

theorem FailAlike.bind {ε α β γ δ : Type} {related : α → β → Prop} {after : γ → δ → Prop}
    {x : Except ε α} {y : Except ε β} {f : α → Except ε γ} {g : β → Except ε δ}
    (h : FailAlike related x y)
    (hnext : ∀ {a b}, related a b → FailAlike after (f a) (g b)) :
    FailAlike after (x >>= f) (y >>= g) := by
  cases h with
  | error cause => exact FailAlike.error cause
  | ok results => exact hnext results

theorem FailAlike.mapError {ε ε' α β : Type} {related : α → β → Prop} {x : Except ε α}
    {y : Except ε β} (h : FailAlike related x y) (f : ε → ε') :
    FailAlike related (x.mapError f) (y.mapError f) := by
  cases h with
  | error cause => exact FailAlike.error (f cause)
  | ok results => exact FailAlike.ok results

namespace Markup

namespace Statement

/-- A text as one text for each of its letters. -/
def letters : Statement → List Statement
  | .text content => content.toList.map fun c => .text (String.singleton c)
  | .invocation name arguments => [.invocation name arguments]

/-- The statements with every text in letters. -/
def spelled (statements : List Statement) : List Statement :=
  statements.flatMap letters

@[simp] theorem spelled_text_cons (content : String) (rest : List Statement) :
    spelled (.text content :: rest) =
      (content.toList.map fun c => .text (String.singleton c)) ++ spelled rest :=
  List.flatMap_cons

@[simp] theorem spelled_invocation_cons (name : String) (arguments : List (List Statement))
    (rest : List Statement) :
    spelled (.invocation name arguments :: rest) = .invocation name arguments :: spelled rest :=
  List.flatMap_cons

theorem spelled_append (statements others : List Statement) :
    spelled (statements ++ others) = spelled statements ++ spelled others :=
  List.flatMap_append

theorem spelled_reverse_cons (s : Statement) (statements : List Statement) :
    spelled (s :: statements).reverse = spelled statements.reverse ++ s.letters := by
  rw [List.reverse_cons, spelled_append]
  simp [spelled]

theorem invoked_letters (cs : List Char) :
    invoked (cs.map fun c => .text (String.singleton c)) = [] := by
  induction cs with
  | nil => rfl
  | cons c rest ih => exact ih

theorem invoked_spelled (statements : List Statement) :
    invoked (spelled statements) = invoked statements := by
  induction statements with
  | nil => rfl
  | cons s rest ih =>
      cases s with
      | text content =>
          rw [spelled_text_cons, invoked_append, invoked_letters, ih]
          rfl
      | invocation name arguments =>
          rw [spelled_invocation_cons, invoked_invocation_cons, invoked_invocation_cons, ih]

end Statement

open Statement

namespace ParseState

variable {registry : Registry} {limit : Nat}

theorem spelled_pushChar (c : Char) (statements : List Statement) :
    spelled (pushChar c statements).reverse =
      spelled statements.reverse ++ [.text (String.singleton c)] := by
  unfold pushChar
  split
  · rw [spelled_reverse_cons, spelled_reverse_cons]
    simp [letters]
  · rw [spelled_reverse_cons]
    simp [letters]

/-- The second of two states continues the first one behind some statements: outside of
all invocations it has them in front, and inside the states are the same. -/
inductive Continues (base : List Statement) : ParseState → ParseState → Prop where
  | outside {current joined : List Statement} (naming : Option (List Char))
      (same : spelled joined.reverse = spelled base ++ spelled current.reverse) :
      Continues base ⟨current, [], naming⟩ ⟨joined, [], naming⟩
  | inside {before joined : List Statement} {outer enclosing : List OpenInvocation}
      (current : List Statement) (name : String) (arguments : List (List Statement))
      (naming : Option (List Char))
      (around : Continues base ⟨before, outer, none⟩ ⟨joined, enclosing, none⟩) :
      Continues base ⟨current, ⟨name, arguments, before⟩ :: outer, naming⟩
        ⟨current, ⟨name, arguments, joined⟩ :: enclosing, naming⟩

namespace Continues

variable {base : List Statement} {s after : ParseState}

theorem start (base : List Statement) :
    Continues base ParseState.start ⟨base.reverse, [], none⟩ := by
  apply Continues.outside
  simp [spelled]

theorem naming_eq (h : Continues base s after) : after.naming = s.naming := by
  cases h <;> rfl

theorem length_enclosing (h : Continues base s after) :
    after.enclosing.length = s.enclosing.length := by
  induction h with
  | outside => rfl
  | inside current name arguments naming around ih => exact congrArg Nat.succ ih

theorem withNaming (h : Continues base s after) (naming : Option (List Char)) :
    Continues base { s with naming := naming } { after with naming := naming } := by
  cases h with
  | outside _ same => exact outside naming same
  | inside current name arguments _ around => exact inside current name arguments naming around

theorem push (h : Continues base s after) (c : Char) :
    Continues base { s with current := pushChar c s.current }
      { after with current := pushChar c after.current } := by
  cases h with
  | outside naming same =>
      apply outside
      rw [spelled_pushChar, spelled_pushChar, same, List.append_assoc]
  | inside current name arguments naming around =>
      exact inside (pushChar c current) name arguments naming around

theorem cons (h : Continues base s after) (statement : Statement) :
    Continues base { s with current := statement :: s.current }
      { after with current := statement :: after.current } := by
  cases h with
  | outside naming same =>
      apply outside
      rw [spelled_reverse_cons, spelled_reverse_cons, same, List.append_assoc]
  | inside current name arguments naming around =>
      exact inside (statement :: current) name arguments naming around

theorem resolveName_eq (h : Continues base s after) (registry : Registry) (limit : Nat)
    (letters : List Char) :
    resolveName registry limit after.enclosing letters =
      resolveName registry limit s.enclosing letters := by
  unfold resolveName
  rw [h.length_enclosing]

theorem inStatements (h : Continues base s after) (t : Token) :
    Continues base (s.inStatements t) (after.inStatements t) := by
  cases t with
  | char c => exact h.push c
  | opening => exact h.withNaming (some [])
  | separator =>
      cases h with
      | outside naming same => exact (outside naming same).cons (.text Token.separator.text)
      | inside current name arguments naming around =>
          exact inside [] name (current.reverse :: arguments) naming around
  | closing =>
      cases h with
      | outside naming same => exact (outside naming same).cons (.text Token.closing.text)
      | inside current name arguments naming around =>
          have hinvocation := around.cons
            (.invocation name (current.reverse :: arguments).reverse)
          exact hinvocation.withNaming naming

theorem afterName (h : Continues base s after) (name : String) (t : Token) :
    FailAlike (Continues base) (s.afterName name t) (after.afterName name t) := by
  cases t with
  | char c => exact FailAlike.error _
  | opening => exact FailAlike.error _
  | separator => exact FailAlike.ok (inside [] name [] none (h.withNaming none))
  | closing => exact FailAlike.ok ((h.cons (.invocation name [])).withNaming none)

theorem step (h : Continues base s after) (t : Token) :
    FailAlike (Continues base) (step registry limit s t) (step registry limit after t) := by
  cases hnaming : s.naming with
  | none =>
      have hafter : after.naming = none := h.naming_eq.trans hnaming
      rw [step_outsideName hnaming, step_outsideName hafter]
      exact FailAlike.ok (h.inStatements t)
  | some letters =>
      have hafter : after.naming = some letters := h.naming_eq.trans hnaming
      rcases t.letter_or_mark with ⟨c, rfl⟩ | hmark
      · rw [step_letter hnaming, step_letter hafter]
        exact FailAlike.ok (h.withNaming (some (c :: letters)))
      · rw [step_endsName hnaming hmark, step_endsName hafter hmark, h.resolveName_eq]
        cases resolveName registry limit s.enclosing letters with
        | error cause => exact FailAlike.error cause
        | ok name => exact h.afterName name t

theorem run (h : Continues base s after) (tokens : List Token) :
    FailAlike (Continues base) (tokens.foldlM (ParseState.step registry limit) s)
      (tokens.foldlM (ParseState.step registry limit) after) := by
  induction tokens generalizing s after with
  | nil => exact FailAlike.ok h
  | cons t rest ih =>
      rw [List.foldlM_cons, List.foldlM_cons]
      exact (h.step t).bind ih

theorem finish (h : Continues base s after) (registry : Registry) (limit : Nat) :
    FailAlike (fun statements joined => spelled joined = spelled base ++ spelled statements)
      (s.finish registry limit) (after.finish registry limit) := by
  cases hnaming : s.naming with
  | some letters =>
      rw [finish_endsName hnaming, finish_endsName (h.naming_eq.trans hnaming), h.resolveName_eq]
      cases resolveName registry limit s.enclosing letters <;> exact FailAlike.error _
  | none =>
      cases h with
      | outside naming same =>
          cases hnaming
          exact FailAlike.ok same
      | inside current name arguments naming around =>
          cases hnaming
          exact FailAlike.error _

end Continues
end ParseState

/-- Tokens behind complete statements are read as they are on their own. -/
theorem parse_append {registry : Registry} {limit : Nat} {tokens : List Token}
    {statements : List Statement} (h : parse registry limit tokens = .ok statements)
    (others : List Token) :
    FailAlike (fun found joined => spelled joined = spelled statements ++ spelled found)
      (parse registry limit others) (parse registry limit (tokens ++ others)) := by
  have hstart := ParseState.Continues.start statements
  unfold parse
  rw [List.foldlM_append, parse_eq_ok.mp h]
  exact (hstart.run others).bind fun hs => hs.finish registry limit

end Markup
end ComponentMarkup
