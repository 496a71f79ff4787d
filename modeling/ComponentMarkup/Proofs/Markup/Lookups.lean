import ComponentMarkup.Proofs.Markup.Invocations

/-!
# The names that reading looks up

Reading asks a registry only whether it has the components that are named behind the
opening sequences.  So registries that agree on these names give the same statements or
the same error.
-/

namespace ComponentMarkup

/-- Whether two registries have the same components under some names. -/
def Registry.AgreesOn (registry other : Registry) (names : List String) : Prop :=
  ∀ name ∈ names, other.lookup name = registry.lookup name

instance (registry other : Registry) (names : List String) :
    Decidable (registry.AgreesOn other names) :=
  inferInstanceAs (Decidable (∀ name ∈ names, other.lookup name = registry.lookup name))

namespace Registry.AgreesOn

variable {registry other : Registry} {names : List String}

theorem subset (h : registry.AgreesOn other names) {fewer : List String}
    (hsubset : fewer ⊆ names) : registry.AgreesOn other fewer :=
  fun name hname => h name (hsubset hname)

theorem contains_eq (h : registry.AgreesOn other names) {name : String} (hname : name ∈ names) :
    other.contains name = registry.contains name := by
  rw [contains, contains, h name hname]

end Registry.AgreesOn

namespace Markup
namespace ParseState

variable {registry other : Registry} {limit : Nat}

/-- A name that ends before the rest of the tokens is one of those that are looked up. -/
theorem resolveName_of_agreesOn {letters : List Char} {rest : List Token}
    (hrest : nameRun rest = []) (h : registry.AgreesOn other (invokedAhead (some letters) rest))
    (enclosing : List OpenInvocation) :
    resolveName other limit enclosing letters = resolveName registry limit enclosing letters := by
  have hname : Text.lowercase (String.ofList letters.reverse) ∈
      invokedAhead (some letters) rest := by
    rw [invokedAhead, hrest, List.append_nil]
    exact List.mem_cons_self
  unfold resolveName
  dsimp only
  rw [h.contains_eq hname]

theorem step_of_agreesOn {s : ParseState} {t : Token} {rest : List Token}
    (h : registry.AgreesOn other (invokedAhead s.naming (t :: rest))) :
    step other limit s t = step registry limit s t := by
  cases hnaming : s.naming with
  | none => rw [step_outsideName hnaming, step_outsideName hnaming]
  | some letters =>
      rcases t.letter_or_mark with ⟨c, rfl⟩ | hmark
      · rw [step_letter hnaming, step_letter hnaming]
      · rw [hnaming] at h
        rw [step_endsName hnaming hmark, step_endsName hnaming hmark,
          resolveName_of_agreesOn (nameRun_mark hmark rest) h]

theorem finish_of_agreesOn {s : ParseState}
    (h : registry.AgreesOn other (invokedAhead s.naming [])) :
    s.finish other limit = s.finish registry limit := by
  cases hnaming : s.naming with
  | none => rw [finish_outsideName hnaming, finish_outsideName hnaming]
  | some letters =>
      rw [hnaming] at h
      rw [finish_endsName hnaming, finish_endsName hnaming, resolveName_of_agreesOn nameRun_nil h]

/-- A step names no components that were not ahead before it. -/
theorem invokedAhead_subset {s after : ParseState} {t : Token}
    (h : Step registry limit s t after) (rest : List Token) :
    invokedAhead after.naming rest ⊆ invokedAhead s.naming (t :: rest) := by
  cases h with
  | letter current enclosing c => exact List.Subset.refl _
  | opening current enclosing => exact List.Subset.refl _
  | stray current t mark => rcases mark with rfl | rfl <;> exact List.Subset.refl _
  | separator current innermost outer => exact List.Subset.refl _
  | closing current innermost outer => exact List.Subset.refl _
  | nameLetter current enclosing letters c => simp [invokedAhead, nameRun, invokedNames]
  | nameSeparator current enclosing letters name resolved => exact List.subset_cons_self _ _
  | nameClosing current enclosing letters name resolved => exact List.subset_cons_self _ _

/-- What is read from a state on depends only on the components named ahead of it. -/
theorem reading_of_agreesOn {s : ParseState} {tokens : List Token}
    (h : registry.AgreesOn other (invokedAhead s.naming tokens)) :
    (tokens.foldlM (step other limit) s >>= fun after => after.finish other limit) =
      (tokens.foldlM (step registry limit) s >>= fun after => after.finish registry limit) := by
  induction tokens generalizing s with
  | nil => exact finish_of_agreesOn h
  | cons t rest ih =>
      rw [List.foldlM_cons, List.foldlM_cons, step_of_agreesOn h]
      cases hstep : step registry limit s t with
      | error cause =>
          -- Neither reading goes on behind the error, so how they finish is not compared.
          change Except.error cause = Except.error cause
          rfl
      | ok next =>
          have hahead := invokedAhead_subset (step_eq_ok.mp hstep) rest
          have hrest := ih (h.subset hahead)
          exact hrest

end ParseState

/-- Tokens are read alike with registries that agree on the components that they name. -/
theorem parse_of_agreesOn {registry other : Registry} {limit : Nat} {tokens : List Token}
    (h : registry.AgreesOn other (invokedNames tokens)) :
    parse other limit tokens = parse registry limit tokens :=
  ParseState.reading_of_agreesOn h

end Markup
end ComponentMarkup
