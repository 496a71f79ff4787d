import ComponentMarkup.Proofs.Text.Bytes
import ComponentMarkup.Text.Percent

/-!
# Percent encoding is read back

An encoded text consists of kept characters and of groups that stand for one byte each.  The bytes
that it stands for are the UTF-8 form of the text that was encoded, so no two texts are encoded
alike.
-/

namespace ComponentMarkup
namespace Text
namespace Percent

/-! ## Encoded texts -/

/-- The ASCII letters and digits and nine marks. -/
def IsKept (c : Char) : Prop :=
  c.isAlphanum = true ∨ c ∈ ['-', '_', '.', '!', '~', '*', '\'', '(', ')']

def IsUpperDigit (c : Char) : Prop :=
  c ∈ "0123456789ABCDEF".toList

/-- A row of kept characters and groups of a percent sign and two upper-case digits. -/
inductive IsClean : List Char → Prop where
  | nil : IsClean []
  | kept {c cs} (isKept : IsKept c) (isClean : IsClean cs) : IsClean (c :: cs)
  | group {high low cs} (isHigh : IsUpperDigit high) (isLow : IsUpperDigit low)
      (isClean : IsClean cs) : IsClean ('%' :: high :: low :: cs)

/-- The bytes that an encoded text stands for: a group is one byte, and any other character has
the bytes of its own. -/
def decode : List Char → List UInt8
  | [] => []
  | '%' :: high :: low :: rest =>
      UInt8.ofNat (16 * Hexadecimal.digitValue high + Hexadecimal.digitValue low) :: decode rest
  | c :: rest => String.utf8EncodeChar c ++ decode rest

/-! ## Kept characters and groups -/

theorem isPlain_iff {c : Char} : isPlain c = true ↔ IsKept c := by
  simp [isPlain, IsKept, or_assoc]

theorem isUpperDigit_upperDigit : ∀ n < 16, IsUpperDigit (Hexadecimal.upperDigit n) := by
  unfold IsUpperDigit
  decide

theorem IsClean.append {cs more : List Char} (h : IsClean cs) (hmore : IsClean more) :
    IsClean (cs ++ more) := by
  induction h with
  | nil => exact hmore
  | kept isKept _ ih => exact .kept isKept ih
  | group isHigh isLow _ ih => exact .group isHigh isLow ih

theorem isClean_groups (b : List UInt8) : IsClean (b.flatMap byteGroup) := by
  induction b with
  | nil => exact .nil
  | cons byte rest ih =>
      have hbyte := byte.toNat_lt
      exact .group (isUpperDigit_upperDigit _ (by omega)) (isUpperDigit_upperDigit _ (by omega)) ih

/-- A group is read back as its byte. -/
theorem decode_byteGroup (byte : UInt8) (rest : List Char) :
    decode (byteGroup byte ++ rest) = byte :: decode rest := by
  have hbyte := byte.toNat_lt
  have hvalue : 16 * Hexadecimal.digitValue (Hexadecimal.upperDigit (byte.toNat / 16)) +
      Hexadecimal.digitValue (Hexadecimal.upperDigit (byte.toNat % 16)) = byte.toNat := by
    rw [Hexadecimal.digitValue_upperDigit _ (by omega),
      Hexadecimal.digitValue_upperDigit _ (by omega), Nat.div_add_mod]
  change decode ('%' :: _ :: _ :: rest) = _
  rw [decode, hvalue, UInt8.ofNat_toNat]

theorem decode_groups (b : List UInt8) (rest : List Char) :
    decode (b.flatMap byteGroup ++ rest) = b ++ decode rest := by
  induction b with
  | nil => rfl
  | cons byte others ih =>
      rw [List.flatMap_cons, List.append_assoc, decode_byteGroup, ih, List.cons_append]

theorem decode_cons {c : Char} (h : c ≠ '%') (rest : List Char) :
    decode (c :: rest) = String.utf8EncodeChar c ++ decode rest := by
  rw [decode]
  exact fun _ _ _ hc _ => h hc

/-! ## One character, then the text -/

theorem isClean_encodeChar (c : Char) : IsClean (encodeChar c) := by
  unfold encodeChar
  split
  · rename_i hplain
    exact .kept (isPlain_iff.mp hplain) .nil
  · exact isClean_groups _

theorem decode_encodeChar (c : Char) (rest : List Char) :
    decode (encodeChar c ++ rest) = String.utf8EncodeChar c ++ decode rest := by
  unfold encodeChar
  split
  · rename_i hplain
    apply decode_cons
    rintro rfl
    exact absurd hplain (by decide)
  · exact decode_groups _ rest

theorem isClean_flatMap_encodeChar (cs : List Char) : IsClean (cs.flatMap encodeChar) := by
  induction cs with
  | nil => exact .nil
  | cons c rest ih =>
      rw [List.flatMap_cons]
      exact (isClean_encodeChar c).append ih

theorem decode_flatMap_encodeChar (cs : List Char) : decode (cs.flatMap encodeChar) = bytes cs := by
  induction cs with
  | nil => rfl
  | cons c rest ih => rw [List.flatMap_cons, decode_encodeChar, ih, bytes_cons]

/-- An encoded text is clean and stands for the bytes of the text that was encoded, so distinct
texts are encoded differently. -/
theorem encode_reversible :
    (∀ s, IsClean (encode s).toList ∧
      String.fromUTF8? (decode (encode s).toList).toByteArray = some s) ∧
    Function.Injective encode := by
  have hread : ∀ s, String.fromUTF8? (decode (encode s).toList).toByteArray = some s := by
    intro s
    rw [encode, String.toList_ofList, decode_flatMap_encodeChar]
    exact fromUTF8?_bytes s
  refine ⟨fun s => ⟨?_, hread s⟩, fun s t h => ?_⟩
  · rw [encode, String.toList_ofList]
    exact isClean_flatMap_encodeChar s.toList
  · have hsame := hread s
    rw [h, hread t] at hsame
    exact (Option.some.inj hsame).symm

example : encode "a b&c/é" = "a%20b%26c%2F%C3%A9" := by
  decide

end Percent
end Text
end ComponentMarkup
