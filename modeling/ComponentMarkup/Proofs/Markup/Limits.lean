import ComponentMarkup.Proofs.Markup.Soundness

/-!
# Reading under a smaller limit

A smaller limit on the nesting of invocations does not change how tokens are read until
an invocation is opened beyond it.  What is read nests at least as deep as the
invocations that are open meanwhile, so the nesting of the statements decides whether
the smaller limit is met.
-/

namespace ComponentMarkup
namespace Markup

/-!
# Answers under two limits
-/

/-- The first answer is the second one, or the error that its limit is exceeded. -/
def LimitedBy {α : Type} (limit : Nat) (answer other : Except ParseError α) : Prop :=
  answer = .error (.nestingTooDeep limit) ∨ answer = other

theorem LimitedBy.same {α : Type} (limit : Nat) (answer : Except ParseError α) :
    LimitedBy limit answer answer :=
  Or.inr rfl

theorem LimitedBy.bind {α β : Type} {limit : Nat} {answer other : Except ParseError α}
    {f g : α → Except ParseError β} (h : LimitedBy limit answer other)
    (hnext : ∀ a, LimitedBy limit (f a) (g a)) :
    LimitedBy limit (answer >>= f) (other >>= g) := by
  rcases h with rfl | rfl
  · exact Or.inl rfl
  · cases answer with
    | error cause => exact LimitedBy.same limit (.error cause)
    | ok a => exact hnext a

namespace ParseState

variable {registry : Registry} {limit more : Nat}

theorem limitedBy_resolveName (hle : limit ≤ more) (enclosing : List OpenInvocation)
    (letters : List Char) :
    LimitedBy limit (resolveName registry limit enclosing letters)
      (resolveName registry more enclosing letters) := by
  unfold resolveName
  dsimp only
  split
  · exact LimitedBy.same limit _
  · split
    · exact LimitedBy.same limit _
    · split
      · exact Or.inl rfl
      · rename_i hroom
        rw [if_neg]
        · exact LimitedBy.same limit _
        · omega

theorem limitedBy_step (hle : limit ≤ more) (s : ParseState) (t : Token) :
    LimitedBy limit (step registry limit s t) (step registry more s t) := by
  cases hnaming : s.naming with
  | none =>
      rw [step_outsideName hnaming, step_outsideName hnaming]
      exact LimitedBy.same limit _
  | some letters =>
      rcases t.letter_or_mark with ⟨c, rfl⟩ | hmark
      · rw [step_letter hnaming, step_letter hnaming]
        exact LimitedBy.same limit _
      · rw [step_endsName hnaming hmark, step_endsName hnaming hmark]
        apply (limitedBy_resolveName hle s.enclosing letters).bind
        intro name
        exact LimitedBy.same limit (s.afterName name t)

theorem limitedBy_run (hle : limit ≤ more) (tokens : List Token) (s : ParseState) :
    LimitedBy limit (tokens.foldlM (step registry limit) s)
      (tokens.foldlM (step registry more) s) := by
  induction tokens generalizing s with
  | nil =>
      rw [List.foldlM_nil, List.foldlM_nil]
      exact LimitedBy.same limit _
  | cons t rest ih =>
      rw [List.foldlM_cons, List.foldlM_cons]
      exact (limitedBy_step hle s t).bind ih

theorem limitedBy_finish (hle : limit ≤ more) (s : ParseState) :
    LimitedBy limit (s.finish registry limit) (s.finish registry more) := by
  cases hnaming : s.naming with
  | some letters =>
      rw [finish_endsName hnaming, finish_endsName hnaming]
      apply (limitedBy_resolveName hle s.enclosing letters).bind
      intro name
      exact LimitedBy.same limit (.error (.unexpectedEnd name ⟨1, 0⟩))
  | none =>
      rw [finish_outsideName hnaming, finish_outsideName hnaming]
      exact LimitedBy.same limit _

/-!
# How deep the statements nest that were read
-/

open Statement

/-- How deep the invocations nest that were read before the innermost list of
statements, the open ones included. -/
def nestingOutside : List OpenInvocation → Nat
  | [] => 0
  | innermost :: outer =>
      max (nestingOutside outer)
        (max (depthOfAll innermost.before + outer.length)
          (depthOfArguments innermost.arguments + (outer.length + 1)))

/-- How deep the invocations nest that were read so far. -/
def nestingRead (s : ParseState) : Nat :=
  max (nestingOutside s.enclosing) (depthOfAll s.current + s.enclosing.length)

theorem depthOfAll_pushChar (c : Char) (statements : List Statement) :
    depthOfAll (pushChar c statements) = depthOfAll statements := by
  unfold pushChar
  split
  · rw [depthOfAll, depthOfAll, depth, depth]
  · rw [depthOfAll, depth, Nat.zero_max]

theorem nestingRead_step {s after : ParseState} {t : Token}
    (h : Step registry limit s t after) : s.nestingRead ≤ after.nestingRead := by
  cases h with
  | letter current enclosing c =>
      rw [nestingRead, nestingRead, depthOfAll_pushChar]
  | opening current enclosing => exact Nat.le_refl _
  | stray current t mark =>
      rw [nestingRead, nestingRead, depthOfAll, depth, Nat.zero_max]
  | separator current innermost outer =>
      simp only [nestingRead, nestingOutside, depthOfAll, depthOfArguments, depthOfAll_reverse,
        List.length_cons]
      omega
  | closing current innermost outer =>
      simp only [nestingRead, nestingOutside, depthOfAll, depth, depthOfArguments,
        depthOfArguments_reverse, depthOfAll_reverse, List.length_cons]
      omega
  | nameLetter current enclosing letters c => exact Nat.le_refl _
  | nameSeparator current enclosing letters name resolved =>
      simp only [nestingRead, nestingOutside]
      omega
  | nameClosing current enclosing letters name resolved =>
      simp only [nestingRead, depthOfAll, depth]
      omega

/-- A step that leads to a state within a bound is also made under that bound. -/
theorem Step.withLimit {s after : ParseState} {t : Token} {bound : Nat}
    (h : Step registry limit s t after) (hbound : after.nestingRead ≤ bound) :
    Step registry bound s t after := by
  cases h with
  | letter current enclosing c => exact Step.letter current enclosing c
  | opening current enclosing => exact Step.opening current enclosing
  | stray current t mark => exact Step.stray current t mark
  | separator current innermost outer => exact Step.separator current innermost outer
  | closing current innermost outer => exact Step.closing current innermost outer
  | nameLetter current enclosing letters c => exact Step.nameLetter current enclosing letters c
  | nameSeparator current enclosing letters name resolved =>
      rcases resolveName_eq_ok.mp resolved with ⟨hlower, hname, hknown, _⟩
      have hopen : enclosing.length < bound := by
        simp only [nestingRead, nestingOutside] at hbound
        omega
      apply Step.nameSeparator
      exact resolveName_eq_ok.mpr ⟨hlower, hname, hknown, hopen⟩
  | nameClosing current enclosing letters name resolved =>
      rcases resolveName_eq_ok.mp resolved with ⟨hlower, hname, hknown, _⟩
      have hopen : enclosing.length < bound := by
        simp only [nestingRead, depthOfAll, depth] at hbound
        omega
      apply Step.nameClosing
      exact resolveName_eq_ok.mpr ⟨hlower, hname, hknown, hopen⟩

theorem nestingRead_run {tokens : List Token} {s after : ParseState}
    (h : tokens.foldlM (step registry limit) s = .ok after) :
    s.nestingRead ≤ after.nestingRead := by
  have hkept : ∀ {other : ParseState} {t : Token} {next : ParseState}, t ∈ tokens →
      Step registry limit other t next → s.nestingRead ≤ other.nestingRead →
      s.nestingRead ≤ next.nestingRead := by
    intro other t next _ hstep hother
    exact Nat.le_trans hother (nestingRead_step hstep)
  exact run_induction hkept h (Nat.le_refl _)

theorem foldlM_withLimit {tokens : List Token} {s after : ParseState} {bound : Nat}
    (h : tokens.foldlM (step registry limit) s = .ok after)
    (hbound : after.nestingRead ≤ bound) :
    tokens.foldlM (step registry bound) s = .ok after := by
  induction tokens generalizing s with
  | nil =>
      cases h
      rfl
  | cons t rest ih =>
      rcases foldlM_cons_eq_ok.mp h with ⟨next, hstep, hrest⟩
      have hnext : next.nestingRead ≤ bound := Nat.le_trans (nestingRead_run hrest) hbound
      exact foldlM_cons_eq_ok.mpr ⟨next, hstep.withLimit hnext, ih hrest⟩

end ParseState

open Statement

/-!
# Parsing under two limits
-/

variable {registry : Registry} {limit more : Nat}

/-- Under a smaller limit tokens are parsed alike, unless the limit is exceeded. -/
theorem limitedBy_parse (hle : limit ≤ more) (tokens : List Token) :
    LimitedBy limit (parse registry limit tokens) (parse registry more tokens) := by
  apply (ParseState.limitedBy_run hle tokens ParseState.start).bind
  intro s
  exact ParseState.limitedBy_finish hle s

/-- Statements that nest within a smaller limit are parsed under it as well, and any
others exceed it. -/
theorem parse_of_parse (hle : limit ≤ more) {tokens : List Token} {statements : List Statement}
    (h : parse registry more tokens = .ok statements) :
    parse registry limit tokens =
      if depthOfAll statements ≤ limit then .ok statements
      else .error (.nestingTooDeep limit) := by
  split
  · rename_i hdepth
    apply parse_eq_ok.mpr
    apply ParseState.foldlM_withLimit (parse_eq_ok.mp h)
    simpa [ParseState.nestingRead, ParseState.nestingOutside, depthOfAll_reverse] using hdepth
  · rename_i hdepth
    rcases limitedBy_parse hle tokens with hexceeded | hsame
    · exact hexceeded
    · rw [h] at hsame
      have hnested := (listSound_of_parse hsame).nested
      exact absurd hnested hdepth

end Markup
end ComponentMarkup
