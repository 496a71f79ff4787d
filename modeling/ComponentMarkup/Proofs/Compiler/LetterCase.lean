import ComponentMarkup.Proofs.Compiler.Documents

/-!
# Names in capital and small letters

A component may be named in capital or small ASCII letters.  The characters of a name
never form a control sequence by a change of case, so the same tokens are read, and a
name is only ever used in lower case, by the messages of errors as well.
-/

namespace ComponentMarkup
namespace Markup

/-!
# Texts that differ in the case of names
-/

/-- Whether a name is being read behind a token, from whether one was being read in front of
it. -/
def Token.namingBehind (naming : Bool) : Token → Bool
  | .char _ => naming
  | t => t = .opening

/-- The characters of some tokens, each with whether it lies in a name, that is, in a row
of characters directly behind an opening sequence. -/
def markedSource (naming : Bool) : List Token → List (Char × Bool)
  | [] => []
  | .char c :: rest => (c, naming) :: markedSource naming rest
  | t :: rest => t.source.map (·, false) ++ markedSource (t.namingBehind naming) rest

/-- Whether a character stands in the place of a marked one: as the same one, or in a name
as the same one up to the case of ASCII letters. -/
def Recased (marked : Char × Bool) (d : Char) : Prop :=
  marked.1 = d ∨ (marked.2 = true ∧ marked.1.toLower = d.toLower)

instance : DecidableRel Recased := fun marked d =>
  inferInstanceAs (Decidable (marked.1 = d ∨ (marked.2 = true ∧ marked.1.toLower = d.toLower)))

/-- Whether two texts of the same length differ at most in the case of ASCII letters in
names. -/
def SameButNames (text other : String) : Prop :=
  List.Forall₂ Recased (markedSource false (Token.scan text.toList)) other.toList

instance : DecidableRel SameButNames := fun text other =>
  inferInstanceAs (Decidable
    (List.Forall₂ Recased (markedSource false (Token.scan text.toList)) other.toList))

theorem map_fst_markedSource (naming : Bool) (tokens : List Token) :
    (markedSource naming tokens).map Prod.fst = tokens.flatMap Token.source := by
  induction tokens generalizing naming with
  | nil => rfl
  | cons t rest ih => cases t <;> simp [markedSource, Token.source, ih]

theorem Recased.toLower_eq {marked : Char × Bool} {d : Char} (h : Recased marked d) :
    marked.1.toLower = d.toLower := by
  rcases h with hsame | ⟨_, hlower⟩
  · rw [hsame]
  · exact hlower

theorem recased_outside {c d : Char} : Recased (c, false) d ↔ c = d := by
  simp [Recased]

theorem map_toLower_of_recased {marked : List (Char × Bool)} {ds : List Char}
    (h : List.Forall₂ Recased marked ds) :
    (marked.map Prod.fst).map Char.toLower = ds.map Char.toLower := by
  induction h with
  | nil => rfl
  | cons hfirst _ ih => rw [List.map_cons, List.map_cons, List.map_cons, hfirst.toLower_eq, ih]

/-- A control sequence is not in a name, so it is the same in both texts. -/
theorem recased_mark {t : Token} (ht : ∀ c, t ≠ .char c) {naming : Bool} {tokens : List Token}
    {ds : List Char} (h : List.Forall₂ Recased (markedSource naming (t :: tokens)) ds) :
    ∃ more, ds = t.source ++ more ∧
      List.Forall₂ Recased (markedSource (t.namingBehind naming) tokens) more := by
  cases t with
  | char c => exact absurd rfl (ht c)
  | _ =>
      obtain ⟨first, _, hfirst, hbehind, rfl⟩ := List.forall₂_cons_left_iff.mp h
      obtain ⟨second, more, hsecond, hmore, rfl⟩ := List.forall₂_cons_left_iff.mp hbehind
      rw [recased_outside] at hfirst hsecond
      subst hfirst hsecond
      exact ⟨more, rfl, hmore⟩

/-!
# Tokens with names in small letters
-/

/-- A token with its letter in lower case if a name is being read. -/
def Token.small : Bool → Token → Token
  | true, .char c => .char c.toLower
  | _, t => t

/-- Tokens with the ASCII letters of names in lower case. -/
def smallNames (naming : Bool) : List Token → List Token
  | [] => []
  | t :: rest => t.small naming :: smallNames (t.namingBehind naming) rest

theorem length_smallNames (naming : Bool) (tokens : List Token) :
    (smallNames naming tokens).length = tokens.length := by
  induction tokens generalizing naming with
  | nil => rfl
  | cons t rest ih => rw [smallNames, List.length_cons, List.length_cons, ih]

/-- The characters of control sequences are no letters. -/
theorem toLower_eq_iff {mark : Char} (hmark : mark ∈ ['!', '[', ']']) (c : Char) :
    c.toLower = mark ↔ c = mark := by
  have hcapital : Text.capitals.map ((fun d => decide (d = mark)) ∘ Char.toLower) =
      Text.capitals.map fun d => decide (d = mark) := by
    simp only [List.mem_cons, List.not_mem_nil, or_false] at hmark
    rcases hmark with rfl | rfl | rfl <;> decide +kernel
  exact decide_eq_decide.mp (Text.apply_toLower hcapital c)

theorem joins_toLower (c d : Char) : Token.Joins c.toLower d.toLower ↔ Token.Joins c d := by
  simp only [Token.Joins, toLower_eq_iff, List.mem_cons, true_or, or_true]

theorem not_joins_of_toLower_eq {c d : Char} {cs ds : List Char} (hchar : c.toLower = d.toLower)
    (hrest : cs.map Char.toLower = ds.map Char.toLower)
    (h : ∀ next ∈ cs.head?, ¬ Token.Joins c next) : ∀ next ∈ ds.head?, ¬ Token.Joins d next := by
  cases ds with
  | nil =>
      intro next hnext
      cases hnext
  | cons e more =>
      obtain ⟨first, others, rfl, hfirst, -⟩ := List.map_eq_cons_iff.mp hrest
      rintro _ ⟨⟩ hjoins
      apply h first rfl
      rw [← joins_toLower, hchar, hfirst, joins_toLower]
      exact hjoins

theorem smallNames_scan_of_mark (t : Token) (ht : ∀ c, t ≠ .char c)
    (hscan : ∀ rest, Token.scan (t.source ++ rest) = t :: Token.scan rest) {naming : Bool}
    {rest ds : List Char}
    (h : List.Forall₂ Recased (markedSource naming (t :: Token.scan rest)) ds)
    (hrest : ∀ {naming more},
      List.Forall₂ Recased (markedSource naming (Token.scan rest)) more →
      smallNames naming (Token.scan more) = smallNames naming (Token.scan rest)) :
    smallNames naming (Token.scan ds) = smallNames naming (t :: Token.scan rest) := by
  obtain ⟨more, rfl, hmore⟩ := recased_mark ht h
  rw [hscan, smallNames, smallNames, hrest hmore]

theorem smallNames_scan_of_char {c : Char} {naming : Bool} {rest ds : List Char}
    (hsingle : ∀ d ∈ rest.head?, ¬ Token.Joins c d)
    (h : List.Forall₂ Recased (markedSource naming (.char c :: Token.scan rest)) ds)
    (hrest : ∀ {naming more},
      List.Forall₂ Recased (markedSource naming (Token.scan rest)) more →
      smallNames naming (Token.scan more) = smallNames naming (Token.scan rest)) :
    smallNames naming (Token.scan ds) = smallNames naming (.char c :: Token.scan rest) := by
  obtain ⟨d, more, hchar, hmore, rfl⟩ := List.forall₂_cons_left_iff.mp h
  have hlower : rest.map Char.toLower = more.map Char.toLower := by
    rw [← map_toLower_of_recased hmore, map_fst_markedSource, Token.flatMap_source_scan]
  have hsmall : (Token.char d).small naming = (Token.char c).small naming := by
    cases naming with
    | false => rw [recased_outside.mp hchar]
    | true => exact congrArg Token.char hchar.toLower_eq.symm
  rw [Token.scan_char (not_joins_of_toLower_eq hchar.toLower_eq hlower hsingle), smallNames,
    smallNames, hsmall]
  exact congrArg _ (hrest hmore)

/-- Texts that differ in the case of names have the same tokens with names in small
letters. -/
theorem smallNames_scan_of_recased {naming : Bool} {cs ds : List Char}
    (h : List.Forall₂ Recased (markedSource naming (Token.scan cs)) ds) :
    smallNames naming (Token.scan ds) = smallNames naming (Token.scan cs) := by
  induction cs using Token.scanInduction generalizing naming ds with
  | nil => rw [List.forall₂_nil_left_iff.mp h]
  | opening rest ih =>
      rw [Token.scan_opening] at h ⊢
      exact smallNames_scan_of_mark .opening (fun c hc => (by cases hc)) Token.scan_opening h ih
  | separator rest ih =>
      rw [Token.scan_separator] at h ⊢
      exact smallNames_scan_of_mark .separator (fun c hc => (by cases hc)) Token.scan_separator h ih
  | closing rest ih =>
      rw [Token.scan_closing] at h ⊢
      exact smallNames_scan_of_mark .closing (fun c hc => (by cases hc)) Token.scan_closing h ih
  | char c rest hsingle ih =>
      rw [Token.scan_char hsingle] at h ⊢
      exact smallNames_scan_of_char hsingle h ih

/-!
# Reading names in small letters
-/

namespace ParseState

variable {registry : Registry} {limit : Nat}

/-- The state with the ASCII letters of a name that is being read in lower case. -/
def small (s : ParseState) : ParseState :=
  { s with naming := s.naming.map (List.map Char.toLower) }

theorem resolveName_map_toLower (enclosing : List OpenInvocation) (letters : List Char) :
    resolveName registry limit enclosing (letters.map Char.toLower) =
      resolveName registry limit enclosing letters := by
  unfold resolveName
  rw [← List.map_reverse, Text.lowercase_map_toLower]

theorem step_small (s : ParseState) (t : Token) :
    step registry limit s.small (t.small s.naming.isSome) =
      (step registry limit s t).map small := by
  obtain ⟨current, enclosing, naming⟩ := s
  cases naming with
  | none => cases t <;> cases enclosing <;> rfl
  | some letters =>
      rcases t.letter_or_mark with ⟨c, rfl⟩ | hmark
      · rfl
      · have hsmall : t.small true = t := by
          cases t with
          | char c => exact absurd rfl (hmark c)
          | _ => rfl
        rw [Option.isSome_some, hsmall, step_endsName rfl hmark, step_endsName rfl hmark]
        dsimp only [small]
        rw [resolveName_map_toLower]
        cases resolveName registry limit enclosing letters with
        | error cause => rfl
        | ok name => cases t <;> rfl

theorem naming_of_step {s after : ParseState} {t : Token} (h : Step registry limit s t after) :
    after.naming.isSome = t.namingBehind s.naming.isSome := by
  cases h with
  | stray current t mark => rcases mark with rfl | rfl <;> rfl
  | _ => rfl

theorem finish_small (s : ParseState) :
    s.small.finish registry limit = s.finish registry limit := by
  obtain ⟨current, enclosing, naming⟩ := s
  cases naming with
  | none => rfl
  | some letters =>
      rw [finish_endsName rfl, finish_endsName rfl]
      dsimp only [small]
      rw [resolveName_map_toLower]

/-- From any state on, names are read as they are in small letters. -/
theorem reading_smallNames (s : ParseState) (tokens : List Token) :
    ((smallNames s.naming.isSome tokens).foldlM (step registry limit) s.small >>= fun after =>
        after.finish registry limit) =
      (tokens.foldlM (step registry limit) s >>= fun after => after.finish registry limit) := by
  induction tokens generalizing s with
  | nil => exact finish_small s
  | cons t rest ih =>
      rw [smallNames, List.foldlM_cons, List.foldlM_cons, step_small]
      cases hstep : step registry limit s t with
      | error cause => rfl
      | ok next =>
          rw [← naming_of_step (step_eq_ok.mp hstep)]
          exact ih next

end ParseState

theorem parse_smallNames (registry : Registry) (limit : Nat) (tokens : List Token) :
    parse registry limit (smallNames false tokens) = parse registry limit tokens :=
  ParseState.reading_smallNames ParseState.start tokens

end Markup

/-!
# Compiling texts that differ in the case of names
-/

namespace Compiler

open Markup (SameButNames Token smallNames)

variable {text other : String}

theorem statements_of_sameButNames (c : Compiler) (h : SameButNames text other) :
    c.statements other = c.statements text := by
  have hsmall : smallNames false (Token.scan other.toList) =
      smallNames false (Token.scan text.toList) :=
    Markup.smallNames_scan_of_recased h
  have hlength : (Token.scan other.toList).length = (Token.scan text.toList).length := by
    rw [← Markup.length_smallNames false, hsmall, Markup.length_smallNames]
  have hparse : Markup.parse c.registry c.nestingLimit (Token.scan other.toList) =
      Markup.parse c.registry c.nestingLimit (Token.scan text.toList) := by
    rw [← Markup.parse_smallNames, hsmall, Markup.parse_smallNames]
  rcases Nat.lt_or_ge c.tokenLimit (Token.scan text.toList).length with hlt | hle
  · rw [statements_of_lt hlt, statements_of_lt (hlength ▸ hlt)]
  · rw [statements_of_le hle, statements_of_le (hlength.symm ▸ hle), hparse]

/-- Texts that differ at most in the case of ASCII letters in names are compiled to the
same document or refused with the same error. -/
theorem compile_of_sameButNames (c : Compiler) (h : SameButNames text other) :
    c.compile other = c.compile text := by
  rw [compile, compile, statements_of_sameButNames c h]

/-- The arguments stay as they are, and so does a letter of a name that is not in ASCII. -/
theorem compile_of_sameButNames_greet :
    (SameButNames "![Greet][![PAIR][a][B]!]!" "![gREET][![pair][a][B]!]!" ∧
        Compiler.compile ⟨Markup.sampleRegistry, Script.evaluator 8, 100, 2⟩
          "![gREET][![pair][a][B]!]!" = .ok ⟨"Hello [a|B|a]!", "b\x7b\x7d"⟩) ∧
      SameButNames "![AΣ][C]!" "![aΣ][C]!" ∧
        Compiler.compile ⟨Markup.sampleRegistry, Script.evaluator 8, 100, 2⟩ "![aΣ][C]!" =
          .error (.ofParse (.invalidName "aς")) := by
  have hpair : SameButNames "![Greet][![PAIR][a][B]!]!" "![gREET][![pair][a][B]!]!" := by
    decide
  have hsigma : SameButNames "![AΣ][C]!" "![aΣ][C]!" := by
    decide
  refine ⟨⟨hpair, ?_⟩, hsigma, ?_⟩
  · rw [compile_of_sameButNames _ hpair]
    decide +kernel
  · rw [compile_of_sameButNames _ hsigma]
    decide +kernel

end Compiler
end ComponentMarkup
