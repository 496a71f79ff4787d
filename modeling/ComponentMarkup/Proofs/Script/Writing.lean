import ComponentMarkup.Proofs.Script.Numbers
import ComponentMarkup.Proofs.Script.Separators
import ComponentMarkup.Proofs.Script.Strings

/-!
# How tokens are written

Signs and keywords have one spelling.  What carries something can be written in more than
one way, and each of them is read back where the code ends or a blank comes next.
-/

namespace ComponentMarkup
namespace Script

/-- The words that are no identifiers. -/
def keywords : List String :=
  ["const", "false", "let", "null", "true", "typeof", "undefined", "var"]

/-- The spelling of a token that carries nothing. -/
def Token.spelling? : Token → Option String
  | .number _ | .string _ | .identifier _ => none
  | .plus => some "+"
  | .minus => some "-"
  | .star => some "*"
  | .slash => some "/"
  | .percent => some "%"
  | .assign => some "="
  | .equal => some "=="
  | .strictEqual => some "==="
  | .bang => some "!"
  | .notEqual => some "!="
  | .strictNotEqual => some "!=="
  | .less => some "<"
  | .lessEqual => some "<="
  | .greater => some ">"
  | .greaterEqual => some ">="
  | .andAnd => some "&&"
  | .orOr => some "||"
  | .question => some "?"
  | .colon => some ":"
  | .semicolon => some ";"
  | .comma => some ","
  | .dot => some "."
  | .leftParen => some "("
  | .rightParen => some ")"
  | .leftBracket => some "["
  | .rightBracket => some "]"
  | .falseWord => some "false"
  | .nullWord => some "null"
  | .trueWord => some "true"
  | .typeofWord => some "typeof"
  | .undefinedWord => some "undefined"
  | .varWord => some "var"
  | .letWord => some "let"
  | .constWord => some "const"

/-- A character of a string between quotes.  Only the quotes and the backslash are
escaped. -/
def escapedChar (quote c : Char) : List Char :=
  if c = quote ∨ c = '\\' then ['\\', c] else [c]

/-- How a token is written. -/
inductive Writes : Token → List Char → Prop where
  | spelling {t : Token} {w : String} (spelled : t.spelling? = some w) : Writes t w.toList
  | identifier {c more} (start : startsWord c = true) (word : ∀ d ∈ more, continuesWord d = true)
      (noKeyword : String.ofList (c :: more) ∉ keywords) :
      Writes (.identifier (String.ofList (c :: more))) (c :: more)
  | string {quote} (s : String) (isQuote : quote = '"' ∨ quote = '\'') :
      Writes (.string s) (quote :: (s.toList.flatMap (escapedChar quote) ++ [quote]))
  | decimal {n : Numeral} {w} (numeral : n.Writes w) : Writes (.number n.value) w
  | hexadecimal {mark digits} (isMark : mark = 'x' ∨ mark = 'X') (row : digits ≠ [])
      (isDigit : ∀ d ∈ digits, Text.Hexadecimal.isDigit d = true)
      (short : digits.length ≤ 16) :
      Writes (.number (Binary.ofNat (Text.Hexadecimal.value digits))) ('0' :: mark :: digits)

/-! ## Signs and keywords -/

/-- The signs that an equality sign could go on with. -/
theorem readSign_of_next {rest : List Char} (hrest : ∀ d ∈ rest.head?, d ≠ '=') :
    readSign '=' rest = (.ok .assign, 1) ∧ readSign '=' ('=' :: rest) = (.ok .equal, 2) ∧
    readSign '!' rest = (.ok .bang, 1) ∧ readSign '!' ('=' :: rest) = (.ok .notEqual, 2) ∧
    readSign '<' rest = (.ok .less, 1) ∧ readSign '>' rest = (.ok .greater, 1) := by
  cases rest with
  | nil => decide
  | cons d ds => simp [readSign, hrest d rfl]

theorem readToken_dot {rest : List Char} (hrest : ∀ d ∈ rest.head?, d.isDigit = false) :
    readToken '.' rest = (.ok .dot, 1) := by
  have hnumber : startsNumber '.' rest = false := by
    cases rest with
    | nil => rfl
    | cons d ds => exact hrest d rfl
  rw [readToken, if_neg (by decide), hnumber, if_neg Bool.false_ne_true]
  rfl

theorem readings_spelling {t : Token} {w : String} (h : t.spelling? = some w) {rest : List Char}
    (hrest : AtBorder rest) : readings (w.toList ++ rest) = .ok t :: readings rest := by
  have hword : ∀ d ∈ rest.head?, continuesWord d = false := hrest.noWord
  obtain ⟨hassign, hequal, hbang, hnotEqual, hless, hgreater⟩ :=
    readSign_of_next (hrest.forall_head? (by decide))
  cases t <;> cases h
  case falseWord.refl | nullWord.refl | trueWord.refl | typeofWord.refl | undefinedWord.refl |
      varWord.refl | letWord.refl | constWord.refl =>
    exact readings_word rfl (List.all_eq_true.mp rfl) hword
  case assign.refl => exact readings_token rfl hassign
  case equal.refl => exact readings_token rfl hequal
  case bang.refl => exact readings_token rfl hbang
  case notEqual.refl => exact readings_token rfl hnotEqual
  case less.refl => exact readings_token rfl hless
  case greater.refl => exact readings_token rfl hgreater
  case dot.refl => exact readings_token rfl (readToken_dot (hrest.forall_head? (by decide)))
  case slash.refl => exact readings_token (gapSize_slash (hrest.forall_head? (by decide))) rfl
  -- Nothing goes on with the other signs.
  all_goals exact readings_token rfl rfl

/-! ## Identifiers -/

theorem ofWord_of_not_mem {word : String} (h : word ∉ keywords) :
    Token.ofWord word = .identifier word := by
  simp only [keywords, List.mem_cons, List.not_mem_nil, or_false, not_or] at h
  obtain ⟨hconst, hfalse, hlet, hnull, htrue, htypeof, hundefined, hvar⟩ := h
  unfold Token.ofWord
  split
  all_goals first | rfl | contradiction

/-! ## Strings -/

theorem readsEach_escapedChar {quote : Char} (hquote : quote = '"' ∨ quote = '\'') :
    ReadsEach quote (escapedChar quote) id := by
  intro c seen count rest
  by_cases hescaped : c = quote ∨ c = '\\'
  · rw [escapedChar, if_pos hescaped]
    rcases hescaped with rfl | rfl
    · rcases hquote with rfl | rfl <;> rfl
    · rcases hquote with rfl | rfl <;> rfl
  · obtain ⟨hplain, hbackslash⟩ := not_or.mp hescaped
    rw [escapedChar, if_neg hescaped, List.singleton_append, readString, if_neg hplain,
      if_neg hbackslash]
    rfl

/-! ## Tokens -/

/-- However a token is written, it is read back where the code ends or a blank comes
next. -/
theorem readings_of_writes {t : Token} {w : List Char} (h : Writes t w) {rest : List Char}
    (hrest : AtBorder rest) : readings (w ++ rest) = .ok t :: readings rest := by
  cases h with
  | spelling spelled => exact readings_spelling spelled hrest
  | identifier start word noKeyword =>
      have hread := readings_word start word hrest.noWord
      rw [ofWord_of_not_mem noKeyword] at hread
      exact hread
  | string s isQuote =>
      have hread := readings_string isQuote (readsEach_escapedChar isQuote) s.toList rest
      rw [List.map_id, String.ofList_toList] at hread
      exact hread
  | decimal numeral => exact readings_decimal numeral hrest
  | hexadecimal isMark row isDigit short =>
      exact readings_hexadecimal isMark row isDigit short hrest

/-!
# Rows of tokens
-/

/-- How a row of tokens is written, with a separator between any two of them. -/
inductive Written : List Token → List Char → Prop where
  | nil : Written [] []
  | last {t w} (token : Writes t w) : Written [t] w
  | cons {t w separator u ts rest} (token : Writes t w) (between : IsSeparator separator)
      (more : Written (u :: ts) rest) : Written (t :: u :: ts) (w ++ (separator ++ rest))

theorem IsSeparator.atBorder {separator : List Char} (h : IsSeparator separator)
    (rest : List Char) : AtBorder (separator ++ rest) := by
  cases h with
  | blank isBlank more =>
      rintro _ ⟨⟩
      exact isBlank

theorem readings_of_written {ts : List Token} {cs : List Char} (h : Written ts cs) :
    readings cs = ts.map .ok := by
  induction h with
  | nil => exact readings_nil
  | @last t w token =>
      have hend : AtBorder [] := by
        rintro _ ⟨⟩
      have hread := readings_of_writes token hend
      rw [List.append_nil, readings_nil] at hread
      exact hread
  | cons token between _ ih =>
      rw [readings_of_writes token (between.atBorder _), readings_gap between.isGap, ih]
      rfl

/-- Tokens that are written out are read back, and nothing else is. -/
theorem lexemes_written {ts : List Token} {cs : List Char} (h : Written ts cs) :
    (lexemes (String.ofList cs)).1.map Lexeme.reading = ts.map .ok := by
  rw [← tokens_eq_iff, tokens_eq_iff_readings, String.toList_ofList]
  exact readings_of_written h

/-- Code with slashes and stars in comments and behind them. -/
def commentedCode : String :=
  "typeof nullé //*\n'it\\'s' /**/ / . 1.5e-02 /***/* 0XfF"

def commentedTokens : List Token :=
  [.typeofWord, .identifier "nullé", .string "it's", .slash, .dot,
    .number (Numeral.mk ['1'] ['5'] (-2)).value, .star,
    .number (Binary.ofNat (Text.Hexadecimal.value ['f', 'F']))]

theorem lexemes_written_commentedCode :
    Written commentedTokens commentedCode.toList ∧
      (lexemes commentedCode).1.map Lexeme.reading = commentedTokens.map .ok := by
  have htypeof : Writes .typeofWord "typeof".toList := .spelling rfl
  have hslash : Writes .slash "/".toList := .spelling rfl
  have hdot : Writes .dot ".".toList := .spelling rfl
  have hstarSign : Writes .star "*".toList := .spelling rfl
  have hname : Writes (.identifier "nullé") ['n', 'u', 'l', 'l', 'é'] :=
    .identifier rfl (List.all_eq_true.mp rfl) (by decide)
  have hstring : Writes (.string "it's") ['\'', 'i', 't', '\\', '\'', 's', '\''] :=
    .string "it's" (.inr rfl)
  have hone : Numeral.IsRow ['1'] := ⟨by decide, List.all_eq_true.mp rfl⟩
  have hfive : Numeral.IsRow ['5'] := ⟨by decide, List.all_eq_true.mp rfl⟩
  have htwo : Numeral.IsRow ['0', '2'] := ⟨by decide, List.all_eq_true.mp rfl⟩
  have hexponent : Numeral.WritesExponent (-2) ['e', '-', '0', '2'] :=
    .marked (.inl rfl) .minus htwo
  have hdecimal : Writes (.number (Numeral.mk ['1'] ['5'] (-2)).value)
      ['1', '.', '5', 'e', '-', '0', '2'] :=
    .decimal (.mk hone (.point hfive) hexponent)
  have hhexadecimal : Writes (.number (Binary.ofNat (Text.Hexadecimal.value ['f', 'F'])))
      ['0', 'X', 'f', 'F'] :=
    .hexadecimal (.inr rfl) (by decide) (List.all_eq_true.mp rfl) (by decide)
  have hblank : IsSeparator [' '] := .blank rfl .nil
  have hunbroken : '\n' ∉ ['*'] := by
    decide
  have hline : IsSeparator [' ', '/', '/', '*', '\n'] := .blank rfl (.line hunbroken .nil)
  have hempty : ¬ ['*', '/'] <:+: [] := by
    decide
  have hblock : IsSeparator [' ', '/', '*', '*', '/', ' '] :=
    .blank rfl (.block hempty (.blank rfl .nil))
  have hunclosed : ¬ ['*', '/'] <:+: ['*'] := by
    decide
  have hstar : IsSeparator [' ', '/', '*', '*', '*', '/'] := .blank rfl (.block hunclosed .nil)
  have hwritten : Written commentedTokens commentedCode.toList :=
    .cons htypeof hblank <| .cons hname hline <| .cons hstring hblock <| .cons hslash hblank <|
      .cons hdot hblank <| .cons hdecimal hstar <| .cons hstarSign hblank <| .last hhexadecimal
  have hread := lexemes_written hwritten
  rw [String.ofList_toList] at hread
  exact ⟨hwritten, hread⟩

end Script
end ComponentMarkup
