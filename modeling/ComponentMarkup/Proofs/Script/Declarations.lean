import ComponentMarkup.Proofs.Json.Quoted
import ComponentMarkup.Proofs.Script.Grammar.Programs
import ComponentMarkup.Proofs.Script.Names
import ComponentMarkup.Proofs.Script.Separation
import ComponentMarkup.Proofs.Script.Strings
import ComponentMarkup.Scope

/-!
# Declarations that are written out

A scope writes its texts as strings of JSON.  The strings of expressions have fewer
escapes, so a backspace and a form feed do not come back.  Everything else does.
-/

namespace ComponentMarkup

def Scope.names (scope : Scope) : List String :=
  scope.bindings.map Prod.fst

def Scope.values (scope : Scope) : List String :=
  scope.bindings.map Prod.snd

namespace Script

/-! ## Strings -/

/-- What is read for a character that is written as in JSON.  There is no escape for a
backspace or a form feed, and an escape without meaning stands for its letter. -/
def rereadChar (c : Char) : Char :=
  if c = '\x08' then 'b'
  else if c = '\x0c' then 'f'
  else c

def reread (s : String) : String :=
  String.ofList (s.toList.map rereadChar)

section Codes

variable {n : Nat} (quote : Char) (seen : List Char) (count : Nat) (rest : List Char)

theorem readString_digit (h : n < 16) (missing soFar : Nat) :
    readString quote seen count (.code (missing + 2) soFar)
        (Text.Hexadecimal.lowerDigit n :: rest) =
      readString quote seen (count + 1) (.code (missing + 1) (16 * soFar + n)) rest := by
  rw [readString]
  dsimp only
  rw [if_pos (Text.Hexadecimal.isDigit_lowerDigit n h), Text.Hexadecimal.digitValue_lowerDigit n h]
  rfl

theorem readString_lastDigit (h : n < 16) {soFar : Nat} {c : Char}
    (hchar : charOfCode? (16 * soFar + n) = some c) :
    readString quote seen count (.code 1 soFar) (Text.Hexadecimal.lowerDigit n :: rest) =
      readString quote (c :: seen) (count + 1) .plain rest := by
  rw [readString]
  dsimp only
  rw [if_pos (Text.Hexadecimal.isDigit_lowerDigit n h),
    Text.Hexadecimal.digitValue_lowerDigit n h, if_pos rfl, hchar]

theorem readString_control {c : Char} (h : c.toNat < 0x20) :
    readString quote seen count .escape
        ('u' :: '0' :: '0' :: Text.Hexadecimal.lowerDigit (c.toNat / 16) ::
          Text.Hexadecimal.lowerDigit (c.toNat % 16) :: rest) =
      readString quote (c :: seen) (count + 5) .plain rest := by
  have hchar : charOfCode? (16 * (c.toNat / 16) + c.toNat % 16) = some c := by
    rw [Nat.div_add_mod, charOfCode?, if_pos (by omega), Char.ofNat_toNat]
  have hmark : ∀ cs : List Char, readString quote seen count .escape ('u' :: cs) =
      readString quote seen (count + 1) (.code 4 0) cs := fun _ => rfl
  rw [hmark, show '0' = Text.Hexadecimal.lowerDigit 0 from rfl,
    readString_digit quote seen _ _ (by decide), readString_digit quote seen _ _ (by decide),
    readString_digit quote seen _ _ (by omega),
    readString_lastDigit quote seen _ _ (by omega) (by simpa using hchar)]

end Codes

theorem rereadChar_of_ne {c : Char} (hbackspace : c ≠ '\x08') (hfeed : c ≠ '\x0c') :
    rereadChar c = c := by
  rw [rereadChar, if_neg hbackspace, if_neg hfeed]

/-- A character that is written as in JSON is read as one character. -/
theorem readString_quotes {c : Char} {written : List Char} (h : Json.Quotes c written)
    (seen : List Char) (count : Nat) (rest : List Char) :
    readString '"' seen count .plain (written ++ rest) =
      readString '"' (rereadChar c :: seen) (count + written.length) .plain rest := by
  cases h with
  | short escape => cases escape <;> rfl
  | code control backspace feed =>
      rw [rereadChar_of_ne backspace feed]
      exact readString_control '"' seen (count + 1) rest control
  | plain quote backslash noControl =>
      have hbackspace : c ≠ '\x08' := by
        intro hc
        rw [hc] at noControl
        exact absurd noControl (by decide)
      have hfeed : c ≠ '\x0c' := by
        intro hc
        rw [hc] at noControl
        exact absurd noControl (by decide)
      rw [rereadChar_of_ne hbackspace hfeed, List.singleton_append, readString, if_neg quote,
        if_neg backslash]
      rfl

/-- A text that is written as a string of JSON is read up to its closing quote. -/
theorem readings_quoted (s : String) (rest : List Char) :
    readings (Json.quotedChars s.toList ++ rest) =
      .ok (.string (reread s)) :: readings rest := by
  have heach : ReadsEach '"' Json.quotedChar rereadChar :=
    fun c => readString_quotes (Json.quotes_quotedChar c)
  exact readings_string (.inl rfl) heach s.toList rest

/-! ## Declarations -/

/-- The tokens of the declaration that a binding is written as. -/
def declarationTokens (binding : String × String) : List Token :=
  [.constWord, .identifier binding.1, .assign, .string (reread binding.2), .semicolon]

theorem toList_declaration (name value : String) :
    (Scope.declaration (name, value)).toList =
      'c' :: (['o', 'n', 's', 't'] ++ ' ' :: (name.toList ++
        ' ' :: '=' :: ' ' :: (Json.quotedChars value.toList ++ [';', '\n']))) := by
  simp [Scope.declaration, Json.quoted]

theorem readings_constWord (text value : String) (rest : List Char) :
    readings ((Scope.declaration (text, value)).toList ++ rest) =
      .ok .constWord :: readings (text.toList ++ (' ' :: '=' :: ' ' ::
        (Json.quotedChars value.toList ++ ';' :: '\n' :: rest))) := by
  have hword : ∀ d ∈ ['o', 'n', 's', 't'], continuesWord d = true := List.all_eq_true.mp rfl
  have hstop : ∀ cs, ∀ d ∈ (' ' :: cs : List Char).head?, continuesWord d = false := by
    intro cs d hd
    cases hd
    decide
  have hconst : ∀ cs, readings ('c' :: ['o', 'n', 's', 't'] ++ ' ' :: cs) =
      .ok .constWord :: readings cs := by
    intro cs
    rw [readings_word rfl hword (hstop cs), readings_of_isBlank rfl]
    rfl
  rw [toList_declaration, ← hconst]
  simp only [List.cons_append, List.append_assoc, List.nil_append]

/-- A declaration is read up to its name, whatever stands behind that. -/
theorem readings_declared {text name value : String} {before after : List Char}
    (isName : IsName name) (front : IsGap before)
    (toList : text.toList = before ++ (name.toList ++ after))
    (hafter : ∀ d ∈ after.head?, continuesWord d = false) (rest : List Char) :
    readings ((Scope.declaration (text, value)).toList ++ rest) =
      .ok .constWord :: .ok (.identifier name) ::
        readings (after ++ (' ' :: '=' :: ' ' ::
          (Json.quotedChars value.toList ++ ';' :: '\n' :: rest))) := by
  have hblank : ∀ cs, ∀ d ∈ (' ' :: cs : List Char).head?, continuesWord d = false := by
    intro cs d hd
    cases hd
    decide
  have hstop := Text.forall_head?_append hafter (hblank ('=' :: ' ' ::
    (Json.quotedChars value.toList ++ ';' :: '\n' :: rest)))
  rw [readings_constWord, toList, List.append_assoc, List.append_assoc, readings_gap front,
    readings_name isName hstop]

theorem readings_declaration {text name : String} (h : Encloses text name) (value : String)
    (rest : List Char) :
    readings ((Scope.declaration (text, value)).toList ++ rest) =
      (declarationTokens (name, value)).map .ok ++ readings rest := by
  obtain ⟨isName, front, back, toList⟩ := h
  have hassign : ∀ cs, readings ('=' :: ' ' :: cs) = .ok .assign :: readings (' ' :: cs) :=
    fun cs => readings_of_readToken rfl rfl
  rw [readings_declared isName front toList back.noWord, readings_gap back,
    readings_of_isBlank rfl, hassign, readings_of_isBlank rfl, readings_quoted,
    readings_semicolon, readings_of_isBlank rfl]
  rfl

theorem toList_foldl_declaration (bindings : List (String × String)) (out : String) :
    (bindings.foldl (fun out binding => out ++ Scope.declaration binding) out).toList =
      out.toList ++ bindings.flatMap fun binding => (Scope.declaration binding).toList := by
  induction bindings generalizing out with
  | nil => simp
  | cons binding bindings ih =>
      rw [List.foldl_cons, ih, String.toList_append, List.append_assoc, List.flatMap_cons]

theorem toList_prelude (scope : Scope) :
    scope.prelude.toList = scope.bindings.flatMap fun binding =>
      (Scope.declaration binding).toList :=
  toList_foldl_declaration scope.bindings ""

theorem readings_declarations {texts names : List String} (h : List.Forall₂ Encloses texts names)
    (values : List String) (rest : List Char) :
    readings ((texts.zip values).flatMap (fun binding => (Scope.declaration binding).toList) ++
        rest) =
      ((names.zip values).flatMap declarationTokens).map .ok ++ readings rest := by
  induction h generalizing values with
  | nil => rfl
  | cons hfirst _ ih =>
      cases values with
      | nil => rfl
      | cons value values =>
          rw [List.zip_cons_cons, List.zip_cons_cons, List.flatMap_cons, List.append_assoc,
            readings_declaration hfirst, ih, List.flatMap_cons, List.map_append,
            List.append_assoc]

theorem zip_names_values (scope : Scope) : scope.names.zip scope.values = scope.bindings :=
  (List.zip_of_prod rfl rfl).symm

theorem readings_prelude {scope : Scope} (h : ∀ binding ∈ scope.bindings, IsName binding.1)
    (rest : List Char) :
    readings (scope.prelude.toList ++ rest) =
      (scope.bindings.flatMap declarationTokens).map .ok ++ readings rest := by
  have hnames : List.Forall₂ Encloses scope.names scope.names :=
    List.forall₂_same.mpr (List.forall_mem_map.mpr fun binding hmem => (h binding hmem).encloses)
  rw [toList_prelude, ← zip_names_values, readings_declarations hnames]

/-! ## Their statements -/

/-- The statement of the declaration that a binding is written as. -/
def declared (binding : String × String) : Statement :=
  .declare binding.1 (some (.string (reread binding.2)))

theorem derives_of_denotes {t : Token} {e : Expr} (h : Denotes t e) :
    Derives .expression [t] [e] := by
  have hunary : Derives .unary [t] [e] := .noUnary (.noApplied (.literal h))
  have hproduct : Derives (.chain .product) [t] [e] := .operand hunary
  have hrelation : Derives (.chain .relation) [t] [e] := .operand (.operand hproduct)
  exact .bare (.operand (.operand (.operand hrelation)))

theorem derivesStatement_declared (binding : String × String) :
    DerivesStatement
      [.constWord, .identifier binding.1, .assign, .string (reread binding.2)]
      (declared binding) :=
  .initialized binding.1 .constWord (derives_of_denotes (.string (reread binding.2)))

/-- The declarations take all their tokens, and what stands behind them is read alone. -/
theorem readsProgram_declarations {room : Nat} (hroom : 4 ≤ room)
    (bindings : List (String × String)) {ts : List Token} {program : Program} :
    ReadsProgram room (bindings.flatMap declarationTokens ++ ts) program ↔
      ∃ rest, ReadsProgram room ts rest ∧ bindings.map declared ++ rest = program := by
  induction bindings generalizing program with
  | nil =>
      constructor
      · intro h
        exact ⟨program, h, rfl⟩
      · rintro ⟨rest, hrest, rfl⟩
        exact hrest
  | cons binding bindings ih =>
      have hfirst : ReadsProgram room
          [.constWord, .identifier binding.1, .assign, .string (reread binding.2)]
          [declared binding] :=
        readsProgram_of_derives (.last (derivesStatement_declared binding)) hroom
      have hsplit : (binding :: bindings).flatMap declarationTokens ++ ts =
          [.constWord, .identifier binding.1, .assign, .string (reread binding.2)] ++
            .semicolon :: (bindings.flatMap declarationTokens ++ ts) := by
        rw [List.flatMap_cons, List.append_assoc]
        rfl
      rw [hsplit, readsProgram_append_semicolon]
      constructor
      · rintro ⟨first, behind, hread, hbehind, rfl⟩
        obtain ⟨rest, hrest, rfl⟩ := ih.mp hbehind
        rw [hread.unique hfirst]
        exact ⟨rest, hrest, rfl⟩
      · rintro ⟨rest, hrest, rfl⟩
        exact ⟨_, _, hfirst, ih.mpr ⟨rest, hrest, rfl⟩, rfl⟩

/-- Behind the bindings of a scope that are written out, code is parsed as it is parsed
alone. -/
theorem parse_prelude {scope : Scope} (h : ∀ binding ∈ scope.bindings, IsName binding.1)
    {limit : Nat} (hlimit : 4 ≤ limit) {code : String} {program : Program} :
    parse limit (scope.prelude ++ code) = .ok program ↔
      ∃ rest, parse limit code = .ok rest ∧ scope.bindings.map declared ++ rest = program := by
  have hread : readings (scope.prelude ++ code).toList =
      (scope.bindings.flatMap declarationTokens).map .ok ++ readings code.toList := by
    rw [String.toList_append, readings_prelude h]
  have hboth : ∀ ts, tokens code = (ts, none) → tokens (scope.prelude ++ code) =
      (scope.bindings.flatMap declarationTokens ++ ts, none) := by
    intro ts htokens
    rw [tokens_eq_iff_readings, hread, tokens_eq_iff_readings.mp htokens, List.map_append]
  constructor
  · intro hparse
    obtain ⟨all, hall⟩ := tokens_of_parse hparse
    have hsplit := tokens_eq_iff_readings.mp hall
    rw [hread] at hsplit
    obtain ⟨_, ts, _, _, hts⟩ := List.append_eq_map_iff.mp hsplit
    have hcode : tokens code = (ts, none) := tokens_eq_iff_readings.mpr hts.symm
    obtain ⟨rest, hrest, hprogram⟩ := (readsProgram_declarations hlimit scope.bindings).mp
      ((parse_eq_ok_iff (hboth ts hcode)).mp hparse)
    exact ⟨rest, (parse_eq_ok_iff hcode).mpr hrest, hprogram⟩
  · rintro ⟨rest, hparse, hprogram⟩
    obtain ⟨ts, hcode⟩ := tokens_of_parse hparse
    have hrest := (parse_eq_ok_iff hcode).mp hparse
    exact (parse_eq_ok_iff (hboth ts hcode)).mpr
      ((readsProgram_declarations hlimit scope.bindings).mpr ⟨rest, hrest, hprogram⟩)

end Script
end ComponentMarkup
