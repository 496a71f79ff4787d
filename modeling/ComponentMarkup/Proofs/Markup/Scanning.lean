import Mathlib.Data.List.Chain
import ComponentMarkup.Markup.Token

/-!
# Where control sequences are met

Two characters form a control sequence only side by side, so a text is scanned
character by character as long as no such pair begins in it.
-/

namespace ComponentMarkup
namespace Markup
namespace Token

/-- Whether two characters side by side are a control sequence. -/
def Joins (c d : Char) : Prop :=
  (c = '!' ∧ d = '[') ∨ (c = ']' ∧ (d = '[' ∨ d = '!'))

instance : DecidableRel Joins := fun c d =>
  inferInstanceAs (Decidable ((c = '!' ∧ d = '[') ∨ (c = ']' ∧ (d = '[' ∨ d = '!'))))

theorem not_joins_closingBracket (c : Char) : ¬ Joins c ']' := by
  rintro (⟨_, h⟩ | ⟨_, h | h⟩) <;> cases h

theorem joins_exclamation {c : Char} (h : Joins c '!') : c = ']' := by
  rcases h with ⟨_, hnext⟩ | ⟨hfirst, _⟩
  · cases hnext
  · exact hfirst

theorem scan_nil : scan [] = [] := rfl

theorem scan_opening (rest : List Char) : scan ('!' :: '[' :: rest) = .opening :: scan rest := by
  rw [scan, scanOnto, scanOnto_cons]

theorem scan_separator (rest : List Char) :
    scan (']' :: '[' :: rest) = .separator :: scan rest := by
  rw [scan, scanOnto, scanOnto_cons]

theorem scan_closing (rest : List Char) : scan (']' :: '!' :: rest) = .closing :: scan rest := by
  rw [scan, scanOnto, scanOnto_cons]

theorem scan_char {c : Char} {rest : List Char} (h : ∀ d ∈ rest.head?, ¬ Joins c d) :
    scan (c :: rest) = .char c :: scan rest := by
  rw [scan, scanOnto, scanOnto_cons]
  · rintro after rfl rfl
    exact h '[' rfl (Or.inl ⟨rfl, rfl⟩)
  · rintro after rfl rfl
    exact h '[' rfl (Or.inr ⟨rfl, Or.inl rfl⟩)
  · rintro after rfl rfl
    exact h '!' rfl (Or.inr ⟨rfl, Or.inr rfl⟩)

/-- A text begins with a control sequence or with a character that forms none with its
successor. -/
theorem scanInduction {motive : List Char → Prop} (nil : motive [])
    (opening : ∀ rest, motive rest → motive ('!' :: '[' :: rest))
    (separator : ∀ rest, motive rest → motive (']' :: '[' :: rest))
    (closing : ∀ rest, motive rest → motive (']' :: '!' :: rest))
    (char : ∀ c rest, (∀ d ∈ rest.head?, ¬ Joins c d) → motive rest → motive (c :: rest))
    (cs : List Char) : motive cs := by
  have hall : ∀ seen : List Token, motive cs := by
    intro seen
    fun_induction scanOnto seen cs with
    | case1 => exact nil
    | case2 seen rest ih => exact opening rest ih
    | case3 seen rest ih => exact separator rest ih
    | case4 seen rest ih => exact closing rest ih
    | case5 seen c rest hopening hseparator hclosing ih =>
        refine char c rest ?_ ih
        intro d hd
        obtain ⟨after, rfl⟩ := List.head?_eq_some_iff.mp hd
        rintro (⟨rfl, rfl⟩ | ⟨rfl, rfl | rfl⟩)
        · exact hopening after rfl rfl
        · exact hseparator after rfl rfl
        · exact hclosing after rfl rfl
  exact hall []

/-- Whether no control sequence is met where two texts are put together: the last
character of the first, unless it is part of a control sequence, forms none with the
second text. -/
def Apart (cs rest : List Char) : Prop :=
  ∀ c, (scan cs).getLast? = some (.char c) → ∀ d ∈ rest.head?, ¬ Joins c d

theorem Apart.behind {cs others rest : List Char} {t : Token} (h : Apart cs rest)
    (hscan : scan cs = t :: scan others) : Apart others rest := by
  intro c hc
  apply h c
  rw [hscan, List.getLast?_cons, hc]
  rfl

/-- Texts that are apart are scanned one behind the other. -/
theorem scan_append {cs rest : List Char} (h : Apart cs rest) :
    scan (cs ++ rest) = scan cs ++ scan rest := by
  induction cs using scanInduction with
  | nil => rfl
  | opening others ih =>
      have hscan := scan_opening others
      rw [hscan, List.cons_append, List.cons_append, scan_opening, ih (h.behind hscan)]
      rfl
  | separator others ih =>
      have hscan := scan_separator others
      rw [hscan, List.cons_append, List.cons_append, scan_separator, ih (h.behind hscan)]
      rfl
  | closing others ih =>
      have hscan := scan_closing others
      rw [hscan, List.cons_append, List.cons_append, scan_closing, ih (h.behind hscan)]
      rfl
  | char c others hsingle ih =>
      have hscan := scan_char hsingle
      have hnext : ∀ d ∈ (others ++ rest).head?, ¬ Joins c d := by
        cases others with
        | nil => exact h c (by rw [hscan]; rfl)
        | cons e more => exact hsingle
      rw [hscan, List.cons_append, scan_char hnext, ih (h.behind hscan)]
      rfl

theorem scan_of_isChain {cs : List Char} (hchain : cs.IsChain fun c d => ¬ Joins c d) :
    scan cs = cs.map .char := by
  induction cs with
  | nil => rfl
  | cons c rest ih =>
      obtain ⟨hnext, hrest⟩ := List.isChain_cons.mp hchain
      rw [scan_char hnext, ih hrest, List.map_cons]

/-- A text without control sequences is scanned by itself, unless its last
character forms one with what follows. -/
theorem scan_append_of_isChain {cs rest : List Char}
    (hchain : cs.IsChain fun c d => ¬ Joins c d)
    (hborder : ∀ c ∈ cs.getLast?, ∀ d ∈ rest.head?, ¬ Joins c d) :
    scan (cs ++ rest) = cs.map .char ++ scan rest := by
  have hscan := scan_of_isChain hchain
  have hapart : Apart cs rest := by
    intro c hc
    rw [hscan, List.getLast?_map, Option.map_eq_some_iff] at hc
    rcases hc with ⟨last, hlast, hchar⟩
    cases hchar
    exact hborder c hlast
  rw [scan_append hapart, hscan]

def marks : List Token :=
  [.opening, .separator, .closing]

/-- A text with none of the control sequences inside it. -/
def MarkFree (cs : List Char) : Prop :=
  ∀ mark ∈ marks, ¬ mark.source <:+: cs

theorem markFree_iff_isChain {cs : List Char} :
    MarkFree cs ↔ cs.IsChain fun c d => ¬ Joins c d := by
  constructor
  · intro h
    refine (List.isChain_isInfix cs).imp fun c d hpair hjoins => ?_
    rcases hjoins with ⟨rfl, rfl⟩ | ⟨rfl, rfl | rfl⟩
    · exact h .opening (by decide) hpair
    · exact h .separator (by decide) hpair
    · exact h .closing (by decide) hpair
  · intro h mark hmark hpair
    have hmarkChain := h.infix hpair
    simp only [marks, List.mem_cons, List.not_mem_nil, or_false] at hmark
    rcases hmark with rfl | rfl | rfl
    · exact hmarkChain.rel (Or.inl ⟨rfl, rfl⟩)
    · exact hmarkChain.rel (Or.inr ⟨rfl, Or.inl rfl⟩)
    · exact hmarkChain.rel (Or.inr ⟨rfl, Or.inr rfl⟩)

instance (cs : List Char) : Decidable (MarkFree cs) :=
  decidable_of_iff (cs.IsChain fun c d => ¬ Joins c d) markFree_iff_isChain.symm

end Token
end Markup
end ComponentMarkup
