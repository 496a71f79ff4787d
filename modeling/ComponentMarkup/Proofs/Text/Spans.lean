/-!
# Spans of characters

A span of characters of one class ends where a character of another class comes next.
-/

namespace ComponentMarkup
namespace Text

variable {p : Char → Bool} {cs rest : List Char}

theorem takeWhile_of_stopped (h : ∀ c ∈ rest.head?, p c = false) : rest.takeWhile p = [] := by
  cases rest with
  | nil => rfl
  | cons c others => exact List.takeWhile_cons_of_neg (Bool.eq_false_iff.mp (h c rfl))

theorem dropWhile_of_stopped (h : ∀ c ∈ rest.head?, p c = false) : rest.dropWhile p = rest := by
  cases rest with
  | nil => rfl
  | cons c others => exact List.dropWhile_cons_of_neg (Bool.eq_false_iff.mp (h c rfl))

theorem takeWhile_append_stopped (hspan : ∀ c ∈ cs, p c = true)
    (h : ∀ c ∈ rest.head?, p c = false) : (cs ++ rest).takeWhile p = cs := by
  rw [List.takeWhile_append_of_pos hspan, takeWhile_of_stopped h, List.append_nil]

theorem dropWhile_append_stopped (hspan : ∀ c ∈ cs, p c = true)
    (h : ∀ c ∈ rest.head?, p c = false) : (cs ++ rest).dropWhile p = rest := by
  rw [List.dropWhile_append_of_pos hspan, dropWhile_of_stopped h]

/-- Behind a span comes a character of another class. -/
theorem stopped_dropWhile : ∀ c ∈ (cs.dropWhile p).head?, p c = false := by
  intro c hc
  have hhead := List.head?_dropWhile_not p cs
  rw [Option.mem_def.mp hc] at hhead
  exact hhead

theorem forall_head?_append {P : Char → Prop} (hspan : ∀ c ∈ cs.head?, P c)
    (h : ∀ c ∈ rest.head?, P c) : ∀ c ∈ (cs ++ rest).head?, P c := by
  cases cs with
  | nil => exact h
  | cons c others => exact hspan

end Text
end ComponentMarkup
