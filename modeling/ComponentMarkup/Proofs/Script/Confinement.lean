import ComponentMarkup.Proofs.Script.Declarations

/-!
# Texts that stay inside their strings

Whatever the texts of a scope are, its written bindings are read as one declaration for each
of them, and only the strings depend on the texts.  That takes names that leave no comment
open: behind one that does, a text can close the comment and go on as code.
-/

namespace ComponentMarkup
namespace Script

/-- Tokens that are the same unless both are strings. -/
inductive SameOutsideStrings : Token → Token → Prop where
  | same (t : Token) : SameOutsideStrings t t
  | strings (s other : String) : SameOutsideStrings (.string s) (.string other)

/-- The tokens of a declaration that binds a name to a string. -/
def bindingTokens (binding : String × String) : List Token :=
  [.constWord, .identifier binding.1, .assign, .string binding.2, .semicolon]

theorem sameOutsideStrings_bindingTokens {names strings others : List String}
    (h : strings.length = others.length) :
    List.Forall₂ SameOutsideStrings ((names.zip strings).flatMap bindingTokens)
      ((names.zip others).flatMap bindingTokens) := by
  induction names generalizing strings others with
  | nil => exact .nil
  | cons name names ih =>
      cases strings with
      | nil =>
          rw [List.eq_nil_of_length_eq_zero h.symm]
          exact .nil
      | cons s strings =>
          cases others with
          | nil => cases h
          | cons other others =>
              have hmore := ih (Nat.succ.inj h)
              exact .cons (.same _) <| .cons (.same _) <| .cons (.same _) <|
                .cons (.strings s other) <| .cons (.same _) hmore

/-! ## Names that leave nothing open -/

theorem flatMap_declarationTokens (names values : List String) :
    (names.zip values).flatMap declarationTokens =
      (names.zip (values.map reread)).flatMap bindingTokens := by
  rw [List.zip_map_right, List.flatMap_map]
  rfl

theorem tokens_prelude_of_encloses {texts names : List String}
    (h : List.Forall₂ Encloses texts names) {scope : Scope} (hscope : scope.names = texts) :
    tokens scope.prelude = ((names.zip (scope.values.map reread)).flatMap bindingTokens, none) := by
  have hread := readings_declarations h scope.values []
  rw [← hscope, zip_names_values, List.append_nil, readings_nil, List.append_nil,
    flatMap_declarationTokens] at hread
  rw [tokens_eq_iff_readings, toList_prelude]
  exact hread

/-! ## Names that leave a comment open -/

/-- No declaration starts with an equality sign. -/
theorem head?_readings_declarations (bindings : List (String × String)) :
    (readings (bindings.flatMap fun binding => (Scope.declaration binding).toList)).head? ≠
      some (.ok .assign) := by
  cases bindings with
  | nil =>
      rw [List.flatMap_nil, readings_nil]
      intro h
      cases h
  | cons binding bindings =>
      rw [List.flatMap_cons, readings_constWord, List.head?_cons]
      intro h
      cases h

/-- Behind an open comment, a text that closes it goes on as code. -/
theorem head?_readings_openComment {comment rest : List Char} (h : OpenComment comment)
    (hrest : (readings rest).head? ≠ some (.ok .assign)) :
    (readings (comment ++ (' ' :: '=' :: ' ' ::
      (Json.quotedChars "*/;".toList ++ ';' :: '\n' :: rest)))).head? ≠ some (.ok .assign) := by
  have hquoted : Json.quotedChars "*/;".toList = ['"', '*', '/', ';', '"'] := by
    decide
  rw [hquoted]
  cases h with
  | @line body unbroken =>
      have hline : '\n' ∉ body ++ [' ', '=', ' ', '"', '*', '/', ';', '"', ';'] := by
        simpa using unbroken
      have hgap := readings_gap (.line hline .nil) rest
      simp only [List.append_assoc, List.cons_append, List.nil_append] at hgap ⊢
      rwa [hgap]
  | @block body unclosed =>
      have hblock : ¬ ['*', '/'] <:+: body ++ [' ', '=', ' ', '"'] :=
        not_infix_append unclosed (by decide)
      have hgap := readings_gap (.block hblock .nil) (';' :: '"' :: ';' :: '\n' :: rest)
      simp only [List.append_assoc, List.cons_append, List.nil_append] at hgap ⊢
      rw [hgap, readings_semicolon, List.head?_cons]
      intro hassign
      cases hassign

theorem readings_ne_of_leavesOpen {text name : String} (h : LeavesOpen text name)
    (bindings : List (String × String)) (s : String) (ts : List Token) :
    readings ((Scope.declaration (text, "*/;")).toList ++
        bindings.flatMap fun binding => (Scope.declaration binding).toList) ≠
      (bindingTokens (name, s) ++ ts).map .ok := by
  obtain ⟨isName, front, back, isOpen, toList⟩ := h
  have hstop := Text.forall_head?_append back.noWord isOpen.noWord
  intro hread
  rw [readings_declared isName front toList hstop, List.append_assoc, readings_gap back] at hread
  have hassign := congrArg List.head? (List.cons.inj (List.cons.inj hread).2).2
  exact head?_readings_openComment isOpen (head?_readings_declarations bindings) hassign

/-- Behind a name that leaves a comment open, some texts are read as something else than
strings. -/
theorem exists_escaping_values {texts names : List String}
    (h : List.Forall₂ (fun text name => Encloses text name ∨ LeavesOpen text name) texts names)
    (hopen : ∃ text ∈ texts, ∃ name, LeavesOpen text name) :
    ∃ values, values.length = texts.length ∧ ∀ strings,
      readings ((texts.zip values).flatMap fun binding => (Scope.declaration binding).toList) ≠
        ((names.zip strings).flatMap bindingTokens).map .ok := by
  induction h with
  | nil =>
      obtain ⟨_, hmem, _⟩ := hopen
      cases hmem
  | @cons text name texts names hfirst hrest ih =>
      rcases hfirst with hencloses | hleaves
      · have hlater : ∃ text ∈ texts, ∃ name, LeavesOpen text name := by
          obtain ⟨found, hmem, other, hleaves⟩ := hopen
          rcases List.mem_cons.mp hmem with rfl | hmem
          · exact absurd hleaves hencloses.not_leavesOpen
          · exact ⟨found, hmem, other, hleaves⟩
        obtain ⟨values, hlength, hvalues⟩ := ih hlater
        refine ⟨"" :: values, congrArg Nat.succ hlength, fun strings => ?_⟩
        rw [List.zip_cons_cons, List.flatMap_cons, readings_declaration hencloses]
        cases strings with
        | nil => exact List.cons_ne_nil _ _
        | cons s strings =>
            intro hread
            have hbehind : declarationTokens (name, "") = bindingTokens (name, "") := rfl
            rw [List.zip_cons_cons, List.flatMap_cons, List.map_append] at hread
            exact hvalues strings (List.append_inj hread rfl).2
      · refine ⟨"*/;" :: texts.map fun _ => "", by simp, fun strings => ?_⟩
        rw [List.zip_cons_cons, List.flatMap_cons]
        cases strings with
        | nil =>
            rw [readings_constWord]
            exact List.cons_ne_nil _ _
        | cons s strings =>
            rw [List.zip_cons_cons, List.flatMap_cons]
            exact readings_ne_of_leavesOpen hleaves _ s _

/-! ## All texts -/

/-- The written bindings of a scope are read as one declaration for each of them, and scopes
with the same names differ in their strings only, whatever the texts are.  That holds where
each name is read as a single identifier and leaves no comment open, and nowhere else. -/
theorem tokens_prelude {texts names : List String}
    (h : List.Forall₂ (fun text name => tokens text = ([.identifier name], none)) texts names) :
    ((∀ text ∈ texts, ∀ name, ¬ LeavesOpen text name) →
      ∀ scope other : Scope, scope.names = texts → other.names = texts →
        tokens scope.prelude =
          ((names.zip (scope.values.map reread)).flatMap bindingTokens, none) ∧
        List.Forall₂ SameOutsideStrings (tokens scope.prelude).1 (tokens other.prelude).1) ∧
    ((∃ text ∈ texts, ∃ name, LeavesOpen text name) →
      ∃ scope : Scope, scope.names = texts ∧ ∀ strings,
        tokens scope.prelude ≠ ((names.zip strings).flatMap bindingTokens, none)) := by
  have hcases : List.Forall₂ (fun text name => Encloses text name ∨ LeavesOpen text name)
      texts names := h.imp fun _ _ => encloses_or_leavesOpen
  constructor
  · intro hclosed scope other hscope hother
    have hencloses : List.Forall₂ Encloses texts names :=
      ((List.forall₂_and_left texts names).mpr ⟨hclosed, hcases⟩).imp
        fun _ name hfound => hfound.2.resolve_right (hfound.1 name)
    have hlength : (scope.values.map reread).length = (other.values.map reread).length := by
      have hnames := congrArg List.length (hscope.trans hother.symm)
      simpa [Scope.names, Scope.values] using hnames
    have hread := tokens_prelude_of_encloses hencloses hscope
    refine ⟨hread, ?_⟩
    rw [hread, tokens_prelude_of_encloses hencloses hother]
    exact sameOutsideStrings_bindingTokens hlength
  · intro hopen
    obtain ⟨values, hlength, hvalues⟩ := exists_escaping_values hcases hopen
    refine ⟨⟨texts.zip values⟩, List.map_fst_zip hlength.ge, fun strings hread => ?_⟩
    rw [tokens_eq_iff_readings, toList_prelude] at hread
    exact hvalues strings hread

def enclosedScope : Scope :=
  ⟨[("\twho /* the reader */", "\"; evil(); //\n\x1b\\"), ("n", "*/")]⟩

def openScope : Scope :=
  ⟨[("a/*", ""), ("b", "*/ = evil(); //")]⟩

theorem tokens_prelude_enclosedScope :
    List.Forall₂ (fun text name => tokens text = ([.identifier name], none))
      enclosedScope.names ["who", "n"] ∧
    (∀ text ∈ enclosedScope.names, ∀ name, ¬ LeavesOpen text name) ∧
    tokens enclosedScope.prelude =
      ([.constWord, .identifier "who", .assign, .string "\"; evil(); //\n\x1b\\", .semicolon,
        .constWord, .identifier "n", .assign, .string "*/", .semicolon], none) ∧
    List.Forall₂ (fun text name => tokens text = ([.identifier name], none))
      openScope.names ["a", "b"] ∧
    ∃ scope : Scope, scope.names = openScope.names ∧ ∀ strings,
      tokens scope.prelude ≠ ((["a", "b"].zip strings).flatMap bindingTokens, none) := by
  have hword : IsName "who" := by
    cbv
  have hn : IsName "n" := by
    cbv
  have ha : IsName "a" := by
    cbv
  have hreader : ¬ ['*', '/'] <:+: " the reader ".toList := by
    decide
  have hwho : Encloses "\twho /* the reader */" "who" :=
    .mk hword (.blank rfl .nil) (.blank rfl (.block hreader .nil)) rfl
  have hmark : OpenComment ['/', '*'] :=
    .block (by decide)
  have hleaves : LeavesOpen "a/*" "a" :=
    .mk ha .nil .nil hmark rfl
  have hnames : List.Forall₂ (fun text name => tokens text = ([.identifier name], none))
      enclosedScope.names ["who", "n"] :=
    .cons (by cbv) (.cons hn .nil)
  have hopenNames : List.Forall₂ (fun text name => tokens text = ([.identifier name], none))
      openScope.names ["a", "b"] :=
    .cons (by cbv) (.cons (by cbv) .nil)
  have hclosed : ∀ text ∈ enclosedScope.names, ∀ name, ¬ LeavesOpen text name := by
    simp [enclosedScope, Scope.names, hwho.not_leavesOpen, hn.encloses.not_leavesOpen]
  refine ⟨hnames, hclosed, ((tokens_prelude hnames).1 hclosed enclosedScope enclosedScope rfl rfl).1,
    hopenNames, (tokens_prelude hopenNames).2 ⟨"a/*", by decide, "a", hleaves⟩⟩

/-- A text closes the comment that a name leaves open, and is read as code. -/
theorem tokens_prelude_openScope :
    tokens "a/*" = ([.identifier "a"], none) ∧ tokens "b" = ([.identifier "b"], none) ∧
    tokens openScope.prelude =
      ([.constWord, .identifier "a", .assign, .identifier "evil", .leftParen, .rightParen,
        .semicolon], none) ∧
    ∀ strings, tokens openScope.prelude ≠ ((["a", "b"].zip strings).flatMap bindingTokens, none)
      := by
  have ha : tokens "a/*" = ([.identifier "a"], none) := by
    cbv
  have hb : tokens "b" = ([.identifier "b"], none) := by
    cbv
  have hprelude : tokens openScope.prelude =
      ([.constWord, .identifier "a", .assign, .identifier "evil", .leftParen, .rightParen,
        .semicolon], none) := by
    cbv
  refine ⟨ha, hb, hprelude, fun strings hread => ?_⟩
  rw [hprelude] at hread
  cases strings with
  | nil => cases hread
  | cons s strings => cases hread

end Script
end ComponentMarkup
