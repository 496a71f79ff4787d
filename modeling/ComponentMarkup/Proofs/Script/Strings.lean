import ComponentMarkup.Proofs.Script.Readings

/-!
# Strings of expressions

A string is read character by character up to its closing quote, so what is read of it is
known from the ways in which its characters are written.
-/

namespace ComponentMarkup
namespace Script

/-- Whether every character, as it is written, is read as one character. -/
def ReadsEach (quote : Char) (write : Char → List Char) (read : Char → Char) : Prop :=
  ∀ c seen count rest, readString quote seen count .plain (write c ++ rest) =
    readString quote (read c :: seen) (count + (write c).length) .plain rest

theorem readString_flatMap {quote : Char} {write : Char → List Char} {read : Char → Char}
    (h : ReadsEach quote write read) (cs seen : List Char) (count : Nat) (rest : List Char) :
    readString quote seen count .plain (cs.flatMap write ++ quote :: rest) =
      (.ok (.string (String.ofList (seen.reverse ++ cs.map read))),
        count + (cs.flatMap write).length + 1) := by
  induction cs generalizing seen count with
  | nil =>
      rw [List.flatMap_nil, List.nil_append, List.map_nil, List.append_nil, readString,
        if_pos rfl]
      rfl
  | cons c cs ih =>
      rw [List.flatMap_cons, List.append_assoc, h, ih, List.length_append, List.reverse_cons,
        List.append_assoc, Nat.add_assoc count]
      rfl

/-- A string between quotes is read as the characters that are read of it one by one. -/
theorem readings_string {quote : Char} (hquote : quote = '"' ∨ quote = '\'')
    {write : Char → List Char} {read : Char → Char} (h : ReadsEach quote write read)
    (cs rest : List Char) :
    readings (quote :: (cs.flatMap write ++ [quote]) ++ rest) =
      .ok (.string (String.ofList (cs.map read))) :: readings rest := by
  have hstring : ∀ cs, readToken quote cs = readString quote [] 1 .plain cs := by
    intro cs
    rcases hquote with rfl | rfl <;> rfl
  have hgap : ∀ cs, gapSize .blanks 0 (quote :: cs) = 0 := by
    intro cs
    rcases hquote with rfl | rfl <;> rfl
  refine readings_token (hgap _) ?_
  rw [hstring, List.append_assoc, List.singleton_append, readString_flatMap h]
  simp [Nat.add_comm]

end Script
end ComponentMarkup
