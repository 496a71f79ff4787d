import Mathlib.Tactic.SplitIfs
import ComponentMarkup.Json.Lexeme
import ComponentMarkup.Json.Quoted

/-!
# How the characters of a string are written

Seven characters have a short escape, the other control characters are written by
their code, and all others stand for themselves.  Every way of writing a character is
read back as that character.
-/

namespace ComponentMarkup
namespace Json

/-- The characters with a short escape and the letters behind their backslash. -/
inductive ShortEscape : Char → Char → Prop where
  | quote : ShortEscape '"' '"'
  | backslash : ShortEscape '\\' '\\'
  | backspace : ShortEscape '\x08' 'b'
  | tab : ShortEscape '\t' 't'
  | newline : ShortEscape '\n' 'n'
  | formFeed : ShortEscape '\x0c' 'f'
  | carriageReturn : ShortEscape '\r' 'r'

/-- How a character is written inside a string. -/
inductive Quotes : Char → List Char → Prop where
  | short {c letter : Char} (escape : ShortEscape c letter) : Quotes c ['\\', letter]
  | code {c : Char} (control : c.toNat < 0x20) (backspace : c ≠ '\x08') (feed : c ≠ '\x0c') :
      Quotes c ['\\', 'u', '0', '0', Text.Hexadecimal.lowerDigit (c.toNat / 16),
        Text.Hexadecimal.lowerDigit (c.toNat % 16)]
  | plain {c : Char} (quote : c ≠ '"') (backslash : c ≠ '\\') (noControl : 0x20 ≤ c.toNat) :
      Quotes c [c]

theorem quotes_quotedChar (c : Char) : Quotes c (quotedChar c) := by
  unfold quotedChar
  split_ifs with hquote hbackslash hbackspace htab hnewline hfeed hreturn hcontrol
  · subst hquote
    exact .short .quote
  · subst hbackslash
    exact .short .backslash
  · subst hbackspace
    exact .short .backspace
  · subst htab
    exact .short .tab
  · subst hnewline
    exact .short .newline
  · subst hfeed
    exact .short .formFeed
  · subst hreturn
    exact .short .carriageReturn
  · exact .code hcontrol hbackspace hfeed
  · exact .plain hquote hbackslash (Nat.le_of_not_lt hcontrol)

/-! ## Strings that are read back -/

/-- The code of a control character is read back. -/
theorem escapedCode?_control {n : Nat} (h : n < 0x20) :
    Lexeme.escapedCode? '0' '0' (Text.Hexadecimal.lowerDigit (n / 16))
      (Text.Hexadecimal.lowerDigit (n % 16)) = some n := by
  have hhigh : n / 16 < 16 := by omega
  have hlow : n % 16 < 16 := by omega
  have hdigits : ['0', '0', Text.Hexadecimal.lowerDigit (n / 16),
      Text.Hexadecimal.lowerDigit (n % 16)].all Text.Hexadecimal.isDigit = true := by
    simp only [List.all_cons, Text.Hexadecimal.isDigit_lowerDigit _ hhigh, Text.Hexadecimal.isDigit_lowerDigit _ hlow]
    rfl
  rw [Lexeme.escapedCode?, if_pos hdigits]
  simp only [Text.Hexadecimal.value, List.foldl_cons, List.foldl_nil,
    Text.Hexadecimal.digitValue_lowerDigit _ hhigh, Text.Hexadecimal.digitValue_lowerDigit _ hlow]
  rw [show Text.Hexadecimal.digitValue '0' = 0 from rfl]
  congr 1
  omega

theorem scanString_quotes {c : Char} {written : List Char} (h : Quotes c written)
    (seen rest : List Char) :
    Lexeme.scanString true none seen (written ++ rest) =
      Lexeme.scanString true none (c :: seen) rest := by
  cases h with
  | short escape => cases escape <;> rfl
  | code control backspace feed =>
      have hleading : Lexeme.isLeading c.toNat = false := by
        simp only [Lexeme.isLeading, Bool.and_eq_false_iff, decide_eq_false_iff_not]
        omega
      have htrailing : Lexeme.isTrailing c.toNat = false := by
        simp only [Lexeme.isTrailing, Bool.and_eq_false_iff, decide_eq_false_iff_not]
        omega
      simp only [List.cons_append, List.nil_append]
      rw [Lexeme.scanString, escapedCode?_control control]
      dsimp only
      rw [hleading, htrailing, Char.ofNat_toNat]
      rfl
  | plain quote backslash noControl =>
      rw [List.singleton_append, Lexeme.scanString.eq_def]
      split
      · rename_i hnil
        cases hnil
      · rename_i hcons
        exact absurd (List.cons.inj hcons).1 quote
      · rename_i hcons
        exact absurd (List.cons.inj hcons).1 backslash
      · rename_i hcons
        exact absurd (List.cons.inj hcons).1 backslash
      · rename_i hcons
        cases hcons
        rw [if_neg (Nat.not_lt.mpr noControl)]
        rfl

theorem scanString_quotedChars (cs seen rest : List Char) :
    Lexeme.scanString true none seen (cs.flatMap quotedChar ++ '"' :: rest) =
      some (some (String.ofList (seen.reverse ++ cs)), rest) := by
  induction cs generalizing seen with
  | nil => simp [Lexeme.scanString]
  | cons c cs ih =>
      rw [List.flatMap_cons, List.append_assoc, scanString_quotes (quotes_quotedChar c), ih,
        List.reverse_cons, List.append_assoc, List.singleton_append]

end Json
end ComponentMarkup
