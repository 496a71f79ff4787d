import ComponentMarkup.Proofs.Script.Readings

/-!
# Tokens that are written out

A token that is written with a blank behind it is read back, and so are such tokens one
behind the other.
-/

namespace ComponentMarkup
namespace Script

/-- Whether some characters, with a blank behind them, are read as a token. -/
structure Spells (w : List Char) (t : Token) : Prop where
  start : ∃ c more, w = c :: more ∧ Text.isBlank c = false ∧ c ≠ '/'
  read : ∀ c more rest, w = c :: more → readToken c (more ++ ' ' :: rest) = (.ok t, w.length)

/-- Spelled tokens, one behind the other. -/
def spelled (l : List (List Char × Token)) : List Char :=
  l.flatMap fun x => x.1 ++ [' ']

theorem readings_spelled {l : List (List Char × Token)} (h : ∀ x ∈ l, Spells x.1 x.2) :
    readings (spelled l) = (l.map Prod.snd).map .ok := by
  induction l with
  | nil => exact readings_nil
  | cons x l ih =>
      obtain ⟨w, t⟩ := x
      have hx := h (w, t) List.mem_cons_self
      obtain ⟨c, more, hw, hblank, hslash⟩ := hx.start
      dsimp only at hx hw
      subst hw
      have hsplit : spelled ((c :: more, t) :: l) = c :: more ++ ' ' :: spelled l := by
        simp [spelled]
      rw [hsplit, readings_token (gapSize_of_start hblank hslash 0 _) (hx.read c more _ rfl),
        readings_of_isBlank (by decide), ih fun y hy => h y (List.mem_cons_of_mem _ hy)]
      rfl

theorem tokens_spelled {l : List (List Char × Token)} (h : ∀ x ∈ l, Spells x.1 x.2) :
    tokens (String.ofList (spelled l)) = (l.map Prod.snd, none) := by
  rw [tokens_eq_iff_readings, String.toList_ofList]
  exact readings_spelled h

end Script
end ComponentMarkup
