import Mathlib

/-!
# Texts and their bytes

In the UTF-8 form of a text a character starts only where a byte says so.  Hence the bytes of
one text stand in those of another one exactly where its characters do.
-/

namespace ComponentMarkup
namespace Text

/-- The bytes of the UTF-8 form of a text. -/
def bytes (cs : List Char) : List UInt8 :=
  cs.flatMap String.utf8EncodeChar

theorem bytes_cons (c : Char) (cs : List Char) :
    bytes (c :: cs) = String.utf8EncodeChar c ++ bytes cs :=
  List.flatMap_cons

theorem bytes_append (cs more : List Char) : bytes (cs ++ more) = bytes cs ++ bytes more :=
  List.flatMap_append

/-- The bytes of a text are read back as the text. -/
theorem fromUTF8?_bytes (s : String) : String.fromUTF8? (bytes s.toList).toByteArray = some s := by
  have hbytes : (bytes s.toList).toByteArray = s.toByteArray := String.utf8Encode_toList
  have hvalid : (bytes s.toList).toByteArray.IsValidUTF8 := ByteArray.isValidUTF8_utf8Encode
  rw [String.fromUTF8?, dif_pos hvalid]
  exact congrArg some (String.toByteArray_inj.mp hbytes)

theorem bytes_injective : Function.Injective bytes := by
  intro cs more h
  have hencoded : cs.utf8Encode = more.utf8Encode := congrArg List.toByteArray h
  have hdecoded := congrArg ByteArray.utf8Decode? hencoded
  rw [List.utf8Decode?_utf8Encode, List.utf8Decode?_utf8Encode] at hdecoded
  exact congrArg Array.toList (Option.some.inj hdecoded)

/-! ## Where characters start -/

/-- Whether no character is cut in front of some bytes: they are none, or the first of them is
the first byte of a character. -/
def StartsCharacter (b : List UInt8) : Prop :=
  ∀ first ∈ b.head?, first.IsUTF8FirstByte

theorem startsCharacter_bytes_append {cs : List Char} (h : cs ≠ []) (rest : List UInt8) :
    StartsCharacter (bytes cs ++ rest) := by
  cases cs with
  | nil => exact absurd rfl h
  | cons c more =>
      intro first hfirst
      rw [bytes_cons, List.append_assoc, List.head?_append_of_ne_nil _ String.utf8EncodeChar_ne_nil,
        Option.mem_def, List.head?_eq_getElem?, List.getElem?_eq_some_iff] at hfirst
      obtain ⟨_, rfl⟩ := hfirst
      exact UInt8.isUTF8FirstByte_getElem_zero_utf8EncodeChar

theorem startsCharacter_bytes (cs : List Char) : StartsCharacter (bytes cs) := by
  by_cases h : cs = []
  · rw [h]
    intro first hfirst
    cases hfirst
  · simpa using startsCharacter_bytes_append h []

/-- Inside a character no other one starts. -/
theorem not_startsCharacter_inside {c : Char} {before after : List UInt8} {first : UInt8}
    (h : before ++ first :: after = String.utf8EncodeChar c) (hbefore : before ≠ []) :
    ¬ first.IsUTF8FirstByte := by
  intro hfirst
  have hplace : before.length < (String.utf8EncodeChar c).length := by
    rw [← h, List.length_append, List.length_cons]
    omega
  have hbyte : (String.utf8EncodeChar c)[before.length] = first := by
    simp only [← h, List.getElem_append_right (Nat.le_refl _), Nat.sub_self, List.getElem_cons_zero]
  rw [← hbyte, UInt8.isUTF8FirstByte_getElem_utf8EncodeChar] at hfirst
  exact hbefore (List.length_eq_zero_iff.mp hfirst)

/-- Where a character starts, the bytes of a text are cut between two characters. -/
theorem exists_append_of_bytes_eq {cs : List Char} {front back : List UInt8}
    (h : bytes cs = front ++ back) (hback : StartsCharacter back) :
    ∃ before after, cs = before ++ after ∧ bytes before = front ∧ bytes after = back := by
  induction cs generalizing front with
  | nil =>
      obtain ⟨rfl, rfl⟩ := List.nil_eq_append_iff.mp h
      exact ⟨[], [], rfl, rfl, rfl⟩
  | cons c rest ih =>
      rw [bytes_cons] at h
      rcases List.append_eq_append_iff.mp h with ⟨inside, hfront, hrest⟩ | ⟨inside, hchar, hcut⟩
      · obtain ⟨before, after, rfl, hbefore, hafter⟩ := ih hrest
        exact ⟨c :: before, after, rfl, by rw [bytes_cons, hbefore, hfront], hafter⟩
      · -- The cut is at the front of the character or behind it, for nothing starts inside.
        cases front with
        | nil => exact ⟨[], c :: rest, rfl, rfl, by rw [bytes_cons, h, List.nil_append]⟩
        | cons byte front =>
            cases inside with
            | nil =>
                rw [List.append_nil] at hchar
                rw [List.nil_append] at hcut
                exact ⟨[c], rest, rfl, by rw [bytes_cons, hchar]; exact List.append_nil _,
                  hcut.symm⟩
            | cons first inside =>
                have hstart := hback first (by rw [hcut]; rfl)
                exact absurd hstart
                  (not_startsCharacter_inside hchar.symm (List.cons_ne_nil byte front))

/-! ## One text in another -/

section Occurrences

variable {pattern cs : List Char}

theorem bytes_prefix_iff : bytes pattern <+: bytes cs ↔ pattern <+: cs := by
  constructor
  · rintro ⟨rest, h⟩
    have hencoded : pattern.utf8Encode ++ rest.toByteArray = cs.utf8Encode := by
      rw [List.utf8Encode, List.utf8Encode, ← List.toByteArray_append]
      exact congrArg List.toByteArray h
    exact List.isPrefix_of_utf8Encode_append_eq_utf8Encode _ hencoded
  · rintro ⟨rest, rfl⟩
    exact ⟨bytes rest, (bytes_append pattern rest).symm⟩

theorem bytes_suffix_iff : bytes pattern <:+ bytes cs ↔ pattern <:+ cs := by
  constructor
  · rintro ⟨front, h⟩
    obtain ⟨before, after, rfl, -, hafter⟩ :=
      exists_append_of_bytes_eq h.symm (startsCharacter_bytes pattern)
    exact ⟨before, by rw [bytes_injective hafter]⟩
  · rintro ⟨before, rfl⟩
    exact ⟨bytes before, (bytes_append before pattern).symm⟩

theorem bytes_infix_iff : bytes pattern <:+: bytes cs ↔ pattern <:+: cs := by
  constructor
  · rintro ⟨front, back, h⟩
    by_cases hpattern : pattern = []
    · rw [hpattern]
      exact List.nil_infix
    · rw [List.append_assoc] at h
      obtain ⟨before, after, rfl, -, hafter⟩ :=
        exists_append_of_bytes_eq h.symm (startsCharacter_bytes_append hpattern back)
      have hprefix : pattern <+: after := bytes_prefix_iff.mp ⟨back, hafter.symm⟩
      exact hprefix.isInfix.trans (List.suffix_append before after).isInfix
  · rintro ⟨before, after, rfl⟩
    exact ⟨bytes before, bytes after, by rw [bytes_append, bytes_append]⟩

end Occurrences

end Text
end ComponentMarkup
