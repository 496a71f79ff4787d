import ComponentMarkup.Proofs.Markup.Names

/-!
# How tokens are read

One relation says all that reading a token can do.  What every step keeps is
kept by a whole reading.
-/

namespace ComponentMarkup
namespace Markup

namespace ParseState

/-!
# Names that end
-/

variable {registry : Registry} {limit : Nat}

theorem resolveName_eq_ok {enclosing : List OpenInvocation} {letters : List Char}
    {name : String} :
    resolveName registry limit enclosing letters = .ok name ↔
      name = Text.lowercase (String.ofList letters.reverse) ∧ IsLowerName name ∧
        registry.contains name = true ∧ enclosing.length < limit := by
  unfold resolveName
  dsimp only
  constructor
  · intro h
    split at h
    · cases h
    · rename_i hname
      split at h
      · cases h
      · rename_i hknown
        split at h
        · cases h
        · rename_i hdepth
          cases h
          simp only [Bool.not_eq_true', Bool.not_eq_false] at hname hknown
          exact ⟨rfl, isLowerName_lowercase hname, hknown, Nat.lt_of_not_le hdepth⟩
  · rintro ⟨hlower, hname, hknown, hdepth⟩
    rw [← hlower, isComponentName_of_isLowerName hname, hknown]
    simp [Nat.not_le.mpr hdepth]

/-!
# Steps
-/

/-- What reading one token can do. -/
inductive Step (registry : Registry) (limit : Nat) : ParseState → Token → ParseState → Prop where
  | letter (current : List Statement) (enclosing : List OpenInvocation) (c : Char) :
      Step registry limit ⟨current, enclosing, none⟩ (.char c)
        ⟨pushChar c current, enclosing, none⟩
  | opening (current : List Statement) (enclosing : List OpenInvocation) :
      Step registry limit ⟨current, enclosing, none⟩ .opening ⟨current, enclosing, some []⟩
  | stray (current : List Statement) (t : Token) (mark : t = .separator ∨ t = .closing) :
      Step registry limit ⟨current, [], none⟩ t ⟨.text t.text :: current, [], none⟩
  | separator (current : List Statement) (innermost : OpenInvocation)
      (outer : List OpenInvocation) :
      Step registry limit ⟨current, innermost :: outer, none⟩ .separator
        ⟨[], { innermost with arguments := current.reverse :: innermost.arguments } :: outer,
          none⟩
  | closing (current : List Statement) (innermost : OpenInvocation)
      (outer : List OpenInvocation) :
      Step registry limit ⟨current, innermost :: outer, none⟩ .closing
        ⟨.invocation innermost.name (current.reverse :: innermost.arguments).reverse ::
          innermost.before, outer, none⟩
  | nameLetter (current : List Statement) (enclosing : List OpenInvocation)
      (letters : List Char) (c : Char) :
      Step registry limit ⟨current, enclosing, some letters⟩ (.char c)
        ⟨current, enclosing, some (c :: letters)⟩
  | nameSeparator (current : List Statement) (enclosing : List OpenInvocation)
      (letters : List Char) (name : String)
      (resolved : resolveName registry limit enclosing letters = .ok name) :
      Step registry limit ⟨current, enclosing, some letters⟩ .separator
        ⟨[], ⟨name, [], current⟩ :: enclosing, none⟩
  | nameClosing (current : List Statement) (enclosing : List OpenInvocation)
      (letters : List Char) (name : String)
      (resolved : resolveName registry limit enclosing letters = .ok name) :
      Step registry limit ⟨current, enclosing, some letters⟩ .closing
        ⟨.invocation name [] :: current, enclosing, none⟩

theorem step_inStatements (current : List Statement) (enclosing : List OpenInvocation)
    (t : Token) :
    Step registry limit ⟨current, enclosing, none⟩ t
      (inStatements ⟨current, enclosing, none⟩ t) := by
  cases t with
  | char c => exact Step.letter current enclosing c
  | opening => exact Step.opening current enclosing
  | separator =>
      cases enclosing with
      | nil => exact Step.stray current .separator (Or.inl rfl)
      | cons innermost outer => exact Step.separator current innermost outer
  | closing =>
      cases enclosing with
      | nil => exact Step.stray current .closing (Or.inr rfl)
      | cons innermost outer => exact Step.closing current innermost outer

/-- A token is read as one of the steps, and every step reads its token. -/
theorem step_eq_ok {s after : ParseState} {t : Token} :
    step registry limit s t = .ok after ↔ Step registry limit s t after := by
  constructor
  · intro h
    obtain ⟨current, enclosing, naming⟩ := s
    cases naming with
    | none =>
        cases h
        exact step_inStatements current enclosing t
    | some letters =>
        cases hname : resolveName registry limit enclosing letters with
        | error cause =>
            cases t <;> simp [step, hname, bind, Except.bind] at h
            subst h
            exact Step.nameLetter current enclosing letters _
        | ok name =>
            cases t <;> simp [step, hname, bind, Except.bind, afterName] at h <;> subst h
            · exact Step.nameLetter current enclosing letters _
            · exact Step.nameSeparator current enclosing letters name hname
            · exact Step.nameClosing current enclosing letters name hname
  · intro h
    cases h with
    | letter => rfl
    | opening => rfl
    | stray current t mark => rcases mark with rfl | rfl <;> rfl
    | separator => rfl
    | closing => rfl
    | nameLetter => rfl
    | nameSeparator current enclosing letters name resolved =>
        simp [step, resolved, bind, Except.bind, afterName]
    | nameClosing current enclosing letters name resolved =>
        simp [step, resolved, bind, Except.bind, afterName]

/-!
# Marks behind a name

A token that does not go on with a name ends it, and so does the end of the tokens.
-/

variable {s : ParseState} {letters : List Char} {t : Token}

theorem step_outsideName (h : s.naming = none) (t : Token) :
    step registry limit s t = .ok (s.inStatements t) := by
  unfold step
  rw [h]

theorem step_letter (h : s.naming = some letters) (c : Char) :
    step registry limit s (.char c) = .ok { s with naming := some (c :: letters) } := by
  unfold step
  rw [h]

theorem step_endsName (h : s.naming = some letters) (ht : ∀ c, t ≠ .char c) :
    step registry limit s t =
      resolveName registry limit s.enclosing letters >>= fun name => s.afterName name t := by
  unfold step
  rw [h]
  cases t with
  | char c => exact absurd rfl (ht c)
  | opening => rfl
  | separator => rfl
  | closing => rfl

theorem finish_outsideName (h : s.naming = none) :
    s.finish registry limit =
      match s.enclosing with
      | [] => .ok s.current.reverse
      | innermost :: _ => .error (.unexpectedEnd innermost.name ⟨1, 0⟩) := by
  unfold finish
  rw [h]
  cases s.enclosing <;> rfl

theorem finish_endsName (h : s.naming = some letters) :
    s.finish registry limit =
      resolveName registry limit s.enclosing letters >>= fun name =>
        .error (.unexpectedEnd name ⟨1, 0⟩) := by
  unfold finish
  rw [h]

/-!
# Runs
-/

theorem foldlM_cons_eq_ok {s after : ParseState} {t : Token} {rest : List Token} :
    (t :: rest).foldlM (step registry limit) s = .ok after ↔
      ∃ next, Step registry limit s t next ∧
        rest.foldlM (step registry limit) next = .ok after := by
  rw [List.foldlM_cons]
  cases hstep : step registry limit s t with
  | error cause =>
      constructor
      · intro h
        cases h
      · rintro ⟨next, hnext, _⟩
        rw [step_eq_ok.mpr hnext] at hstep
        cases hstep
  | ok next =>
      constructor
      · intro h
        exact ⟨next, step_eq_ok.mp hstep, h⟩
      · rintro ⟨other, hother, h⟩
        rw [step_eq_ok.mpr hother] at hstep
        cases hstep
        exact h

/-- What every step keeps is kept by a run. -/
theorem run_induction {invariant : ParseState → Prop} {tokens : List Token}
    (hstep : ∀ {s t after}, t ∈ tokens → Step registry limit s t after →
      invariant s → invariant after)
    {s after : ParseState} (h : tokens.foldlM (step registry limit) s = .ok after)
    (hs : invariant s) : invariant after := by
  induction tokens generalizing s with
  | nil =>
      cases h
      exact hs
  | cons t rest ih =>
      rcases foldlM_cons_eq_ok.mp h with ⟨next, hnext, hrest⟩
      refine ih (fun hmem => hstep (List.mem_cons_of_mem t hmem)) hrest ?_
      exact hstep List.mem_cons_self hnext hs

/-- What every step leaves to the rest of the tokens, a run leaves to their end. -/
theorem run_conserves {α : Type} (outlook : ParseState → List Token → α)
    (hstep : ∀ {s t after} (rest : List Token), Step registry limit s t after →
      outlook after rest = outlook s (t :: rest))
    {tokens : List Token} {s after : ParseState}
    (h : tokens.foldlM (step registry limit) s = .ok after) :
    outlook after [] = outlook s tokens := by
  induction tokens generalizing s with
  | nil =>
      cases h
      rfl
  | cons t rest ih =>
      rcases foldlM_cons_eq_ok.mp h with ⟨next, hnext, hrest⟩
      rw [ih hrest, hstep rest hnext]

theorem finish_eq_ok {s : ParseState} {statements : List Statement} :
    s.finish registry limit = .ok statements ↔
      s = ⟨statements.reverse, [], none⟩ := by
  obtain ⟨current, enclosing, naming⟩ := s
  cases naming with
  | some letters =>
      cases hname : resolveName registry limit enclosing letters <;>
        simp [finish, hname, bind, Except.bind]
  | none =>
      cases enclosing with
      | nil => simp [finish, List.reverse_eq_iff]
      | cons innermost outer => simp [finish]

end ParseState

/-- Tokens are markup when reading them ends outside of all invocations. -/
theorem parse_eq_ok {registry : Registry} {limit : Nat} {tokens : List Token}
    {statements : List Statement} :
    parse registry limit tokens = .ok statements ↔
      tokens.foldlM (ParseState.step registry limit) ParseState.start =
        .ok ⟨statements.reverse, [], none⟩ := by
  unfold parse
  cases hrun : tokens.foldlM (ParseState.step registry limit) ParseState.start with
  | error cause => simp [bind, Except.bind]
  | ok s => simp [bind, Except.bind, ParseState.finish_eq_ok]

end Markup
end ComponentMarkup
