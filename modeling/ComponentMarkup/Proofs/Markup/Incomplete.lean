import ComponentMarkup.Proofs.Markup.Invocations

/-!
# Incomplete markup and wrong markup

Tokens that end too early leave invocations open, and closing exactly these completes
them.  Any other error stands at some token or name, so whatever follows it leaves it
there.
-/

namespace ComponentMarkup
namespace Markup

/-!
# Open invocations in a row of tokens
-/

/-- The names of the invocations that are still open at the end, innermost first, behind
those that are open already. -/
def unclosedOnto (names : List String) : List Token → List String
  | [] => names
  | .opening :: rest =>
      unclosedOnto (Text.lowercase (String.ofList (nameRun rest)) :: names) rest
  | .closing :: rest => unclosedOnto names.tail rest
  | _ :: rest => unclosedOnto names rest

/-- The names behind the opening sequences that no closing sequence belongs to, innermost
first. -/
def unclosedNames (tokens : List Token) : List String :=
  unclosedOnto [] tokens

namespace ParseState

variable {registry : Registry} {limit : Nat}

/-- The name that is being read, with its letters in the rest of the tokens. -/
def unfinishedName (naming : Option (List Char)) (rest : List Token) : List String :=
  match naming with
  | none => []
  | some letters => [Text.lowercase (String.ofList (letters.reverse ++ nameRun rest))]

/-- The names of the open invocations, innermost first, in front of the rest of the
tokens. -/
def openNames (s : ParseState) (rest : List Token) : List String :=
  unfinishedName s.naming rest ++ s.enclosing.map OpenInvocation.name

/-- Where a name may end, its invocation is the innermost one that is open. -/
theorem openNames_of_resolved {enclosing : List OpenInvocation} {letters : List Char}
    {name : String} (hname : resolveName registry limit enclosing letters = .ok name)
    (current : List Statement) {rest : List Token} (hrest : nameRun rest = []) :
    openNames ⟨current, enclosing, some letters⟩ rest =
      name :: enclosing.map OpenInvocation.name := by
  rw [(resolveName_eq_ok.mp hname).1, openNames, unfinishedName, hrest, List.append_nil]
  rfl

theorem unclosedOnto_step {s after : ParseState} {t : Token}
    (h : Step registry limit s t after) (rest : List Token) :
    unclosedOnto (after.openNames rest) rest = unclosedOnto (s.openNames (t :: rest)) (t :: rest) := by
  cases h with
  | letter current enclosing c => simp [openNames, unfinishedName, unclosedOnto]
  | opening current enclosing => simp [openNames, unfinishedName, unclosedOnto]
  | stray current t mark =>
      rcases mark with rfl | rfl <;> simp [openNames, unfinishedName, unclosedOnto]
  | separator current innermost outer => simp [openNames, unfinishedName, unclosedOnto]
  | closing current innermost outer => simp [openNames, unfinishedName, unclosedOnto]
  | nameLetter current enclosing letters c =>
      simp [openNames, unfinishedName, unclosedOnto, nameRun]
  | nameSeparator current enclosing letters name resolved =>
      rw [openNames_of_resolved resolved current rfl]
      rfl
  | nameClosing current enclosing letters name resolved =>
      rw [openNames_of_resolved resolved current rfl]
      rfl

theorem unclosedOnto_run {tokens : List Token} {s after : ParseState}
    (h : tokens.foldlM (step registry limit) s = .ok after) :
    unclosedOnto (s.openNames tokens) tokens = after.openNames [] := by
  have hrun := run_conserves (fun s rest => unclosedOnto (s.openNames rest) rest)
    (fun rest hstep => unclosedOnto_step hstep rest) h
  exact hrun.symm

/-!
# Closing what is open
-/

/-- Whether a name that is being read may end here. -/
def Closable (registry : Registry) (limit : Nat) (s : ParseState) : Prop :=
  ∀ letters, s.naming = some letters →
    ∃ name, resolveName registry limit s.enclosing letters = .ok name

theorem closable_of_naming_eq_none {s : ParseState} (h : s.naming = none) :
    s.Closable registry limit := by
  intro letters hletters
  rw [h] at hletters
  cases hletters

/-- A closing sequence closes the innermost open invocation. -/
theorem exists_step_closing {s : ParseState} {name : String} {outer : List String}
    (h : s.Closable registry limit) (hopen : s.openNames [] = name :: outer) :
    ∃ after, step registry limit s .closing = .ok after ∧ after.Closable registry limit ∧
      after.openNames [] = outer := by
  rcases s with ⟨current, enclosing, naming⟩
  cases naming with
  | some letters =>
      rcases h letters rfl with ⟨found, hfound⟩
      rw [openNames_of_resolved hfound current rfl] at hopen
      cases hopen
      exact ⟨_, step_eq_ok.mpr (Step.nameClosing current enclosing letters name hfound),
        closable_of_naming_eq_none rfl, rfl⟩
  | none =>
      cases enclosing with
      | nil => cases hopen
      | cons innermost outermost =>
          cases hopen
          exact ⟨_, step_eq_ok.mpr (Step.closing current innermost outermost),
            closable_of_naming_eq_none rfl, rfl⟩

theorem exists_foldlM_closing {s : ParseState} {count : Nat} (h : s.Closable registry limit)
    (hcount : count ≤ (s.openNames []).length) :
    ∃ after, (List.replicate count Token.closing).foldlM (step registry limit) s = .ok after ∧
      after.Closable registry limit ∧ after.openNames [] = (s.openNames []).drop count := by
  induction count generalizing s with
  | zero => exact ⟨s, rfl, h, rfl⟩
  | succ count ih =>
      cases hopen : s.openNames [] with
      | nil =>
          rw [hopen] at hcount
          cases hcount
      | cons name outer =>
          rcases exists_step_closing h hopen with ⟨next, hnext, hclosable, houter⟩
          rw [hopen] at hcount
          have hrest : count ≤ (next.openNames []).length := by
            rw [houter]
            exact Nat.le_of_succ_le_succ hcount
          rcases ih hclosable hrest with ⟨after, hafter, hend, hnames⟩
          rw [houter] at hnames
          refine ⟨after, ?_, hend, hnames⟩
          rw [List.replicate_succ, List.foldlM_cons, hnext]
          exact hafter

/-!
# The end of the tokens
-/

theorem finish_of_openNames_cons {s : ParseState} {name : String} {outer : List String}
    (h : s.Closable registry limit) (hopen : s.openNames [] = name :: outer) :
    s.finish registry limit = .error (.unexpectedEnd name ⟨1, 0⟩) := by
  rcases s with ⟨current, enclosing, naming⟩
  cases naming with
  | some letters =>
      rcases h letters rfl with ⟨found, hfound⟩
      rw [openNames_of_resolved hfound current rfl] at hopen
      cases hopen
      unfold finish
      dsimp only
      rw [hfound]
      rfl
  | none =>
      cases enclosing with
      | nil => cases hopen
      | cons innermost outermost =>
          cases hopen
          rfl

theorem exists_finish_of_openNames_nil {s : ParseState} (h : s.openNames [] = []) :
    ∃ statements, s.finish registry limit = .ok statements := by
  rcases s with ⟨current, enclosing, naming⟩
  cases naming with
  | some letters => cases h
  | none =>
      cases enclosing with
      | nil => exact ⟨current.reverse, rfl⟩
      | cons innermost outermost => cases h

theorem resolveName_ne_unexpectedEnd (enclosing : List OpenInvocation) (letters : List Char)
    (name : String) (shortage : Shortage) :
    resolveName registry limit enclosing letters ≠ .error (.unexpectedEnd name shortage) := by
  unfold resolveName
  dsimp only
  intro h
  split at h
  · cases h
  · split at h
    · cases h
    · split at h
      · cases h
      · cases h

theorem step_ne_unexpectedEnd (s : ParseState) (t : Token) (name : String)
    (shortage : Shortage) : step registry limit s t ≠ .error (.unexpectedEnd name shortage) := by
  intro h
  cases hnaming : s.naming with
  | none =>
      rw [step_outsideName hnaming] at h
      cases h
  | some letters =>
      rcases t.letter_or_mark with ⟨c, rfl⟩ | hmark
      · rw [step_letter hnaming] at h
        cases h
      · rw [step_endsName hnaming hmark] at h
        cases hname : resolveName registry limit s.enclosing letters with
        | error cause =>
            rw [hname] at h
            cases h
            exact resolveName_ne_unexpectedEnd s.enclosing letters name shortage hname
        | ok found =>
            rw [hname] at h
            change s.afterName found t = _ at h
            cases t <;> cases h

theorem run_ne_unexpectedEnd (tokens : List Token) (s : ParseState) (name : String)
    (shortage : Shortage) :
    tokens.foldlM (step registry limit) s ≠ .error (.unexpectedEnd name shortage) := by
  induction tokens generalizing s with
  | nil =>
      intro h
      cases h
  | cons t rest ih =>
      intro h
      rw [List.foldlM_cons] at h
      cases hstep : step registry limit s t with
      | error cause =>
          rw [hstep] at h
          cases h
          exact step_ne_unexpectedEnd s t name shortage hstep
      | ok next =>
          rw [hstep] at h
          exact ih next h

/-- The end of the tokens is unexpected only inside an invocation, and where a name is
being read it may end. -/
theorem closable_of_finish {s : ParseState} {name : String} {shortage : Shortage}
    (h : s.finish registry limit = .error (.unexpectedEnd name shortage)) :
    s.Closable registry limit ∧ ∃ outer, s.openNames [] = name :: outer := by
  have hclosable : s.Closable registry limit := by
    intro letters hletters
    cases hname : resolveName registry limit s.enclosing letters with
    | error cause =>
        rw [finish_endsName hletters, hname] at h
        cases h
        exact absurd hname (resolveName_ne_unexpectedEnd s.enclosing letters name shortage)
    | ok found => exact ⟨found, rfl⟩
  constructor
  · exact hclosable
  · cases hopen : s.openNames [] with
    | nil =>
        have hfinished : ∃ statements, s.finish registry limit = .ok statements :=
          exists_finish_of_openNames_nil hopen
        rcases hfinished with ⟨statements, hfinish⟩
        rw [h] at hfinish
        cases hfinish
    | cons found outer =>
        rw [finish_of_openNames_cons hclosable hopen] at h
        cases h
        exact ⟨outer, rfl⟩

/-- An error at the end that no closing sequence mends is found at the next token as
well, unless the token goes on with the name. -/
theorem step_eq_error_of_finish {s : ParseState} {t : Token} {cause : ParseError}
    (h : s.finish registry limit = .error cause)
    (hcause : ∀ name shortage, cause ≠ .unexpectedEnd name shortage)
    (ht : ∀ c, t ≠ .char c) : step registry limit s t = .error cause := by
  cases hnaming : s.naming with
  | none =>
      rw [finish_outsideName hnaming] at h
      split at h
      · cases h
      · cases h
        exact absurd rfl (hcause _ ⟨1, 0⟩)
  | some letters =>
      rw [finish_endsName hnaming] at h
      rw [step_endsName hnaming ht]
      cases hname : resolveName registry limit s.enclosing letters with
      | error found =>
          rw [hname] at h
          cases h
          rfl
      | ok name =>
          rw [hname] at h
          cases h
          exact absurd rfl (hcause name ⟨1, 0⟩)

end ParseState

/-!
# What follows an error
-/

variable {registry : Registry} {limit : Nat} {tokens : List Token}

theorem parse_append_of_run {s : ParseState}
    (h : tokens.foldlM (ParseState.step registry limit) ParseState.start = .ok s)
    (others : List Token) :
    parse registry limit (tokens ++ others) =
      others.foldlM (ParseState.step registry limit) s >>= fun after =>
        after.finish registry limit := by
  rw [parse, List.foldlM_append, h]
  rfl

/-- Closing some of the invocations that are open leaves the others. -/
theorem exists_run_of_unexpectedEnd {name : String} {shortage : Shortage}
    (h : parse registry limit tokens = .error (.unexpectedEnd name shortage)) :
    ∃ s : ParseState, tokens.foldlM (ParseState.step registry limit) ParseState.start = .ok s ∧
      s.Closable registry limit ∧ s.openNames [] = unclosedNames tokens ∧
      ∃ outer, unclosedNames tokens = name :: outer := by
  cases hrun : tokens.foldlM (ParseState.step registry limit) ParseState.start with
  | error cause =>
      rw [parse, hrun] at h
      cases h
      exact absurd hrun (ParseState.run_ne_unexpectedEnd tokens ParseState.start name shortage)
  | ok s =>
      rw [parse, hrun] at h
      have hnames : unclosedNames tokens = s.openNames [] := ParseState.unclosedOnto_run hrun
      rcases ParseState.closable_of_finish h with ⟨hclosable, hopen⟩
      rw [hnames]
      exact ⟨s, rfl, hclosable, rfl, hopen⟩

theorem parse_append_closing {name : String} {shortage : Shortage}
    (h : parse registry limit tokens = .error (.unexpectedEnd name shortage)) {count : Nat}
    (hcount : count ≤ (unclosedNames tokens).length) :
    ∃ after : ParseState, after.Closable registry limit ∧
      after.openNames [] = (unclosedNames tokens).drop count ∧
      parse registry limit (tokens ++ List.replicate count .closing) =
        after.finish registry limit := by
  rcases exists_run_of_unexpectedEnd h with ⟨s, hrun, hclosable, hnames, _⟩
  rw [← hnames] at hcount ⊢
  rcases ParseState.exists_foldlM_closing hclosable hcount with ⟨after, hafter, hend, hrest⟩
  refine ⟨after, hend, hrest, ?_⟩
  rw [parse_append_of_run hrun, hafter]
  rfl

theorem parse_append_of_error {cause : ParseError} (h : parse registry limit tokens = .error cause)
    (hcause : ∀ name shortage, cause ≠ .unexpectedEnd name shortage) {others : List Token}
    (hothers : ∀ c, others.head? ≠ some (.char c)) :
    parse registry limit (tokens ++ others) = .error cause := by
  cases hrun : tokens.foldlM (ParseState.step registry limit) ParseState.start with
  | error found =>
      rw [parse, hrun] at h
      cases h
      rw [parse, List.foldlM_append, hrun]
      rfl
  | ok s =>
      rw [parse, hrun] at h
      rw [parse_append_of_run hrun]
      cases others with
      | nil => exact h
      | cons t rest =>
          have ht : ∀ c, t ≠ .char c := by
            intro c heq
            exact hothers c (congrArg some heq)
          rw [List.foldlM_cons, ParseState.step_eq_error_of_finish h hcause ht]
          rfl

/-- Tokens whose end is unexpected are completed by closing each open invocation, of which
there is at least one, and by no fewer closing sequences.  The error names the innermost
invocation that is left open.  Any other error stays when more tokens follow, unless they
go on with a name. -/
theorem parse_error_append (registry : Registry) (limit : Nat) (tokens : List Token) :
    (∀ name shortage, parse registry limit tokens = .error (.unexpectedEnd name shortage) →
      (∃ outer, unclosedNames tokens = name :: outer) ∧
        (∃ statements, parse registry limit
          (tokens ++ List.replicate (unclosedNames tokens).length .closing) = .ok statements) ∧
        ∀ count (hcount : count < (unclosedNames tokens).length),
          parse registry limit (tokens ++ List.replicate count .closing) =
            .error (.unexpectedEnd (unclosedNames tokens)[count] ⟨1, 0⟩)) ∧
      ∀ cause, parse registry limit tokens = .error cause →
        (∀ name shortage, cause ≠ .unexpectedEnd name shortage) →
          ∀ others : List Token, (∀ c, others.head? ≠ some (.char c)) →
            parse registry limit (tokens ++ others) = .error cause := by
  constructor
  · intro name shortage h
    constructor
    · rcases exists_run_of_unexpectedEnd h with ⟨_, _, _, _, hopen⟩
      exact hopen
    · constructor
      · rcases parse_append_closing h (Nat.le_refl _) with ⟨after, _, hnames, hparse⟩
        rw [List.drop_length] at hnames
        rw [hparse]
        exact ParseState.exists_finish_of_openNames_nil hnames
      · intro count hcount
        rcases parse_append_closing h (Nat.le_of_lt hcount) with
          ⟨after, hclosable, hnames, hparse⟩
        rw [List.drop_eq_getElem_cons hcount] at hnames
        rw [hparse]
        exact ParseState.finish_of_openNames_cons hclosable hnames
  · intro cause h hcause others hothers
    exact parse_append_of_error h hcause hothers

/-- Two invocations are open, and the name of the inner one has no mark behind it yet.  A
name that is unknown stays unknown. -/
theorem parse_error_append_sample :
    parse sampleRegistry 2 (Token.scan "![pair][a][b![GREET".toList) =
        .error (.unexpectedEnd "greet" ⟨1, 0⟩) ∧
      unclosedNames (Token.scan "![pair][a][b![GREET".toList) = ["greet", "pair"] ∧
      (∃ statements, parse sampleRegistry 2
        (Token.scan "![pair][a][b![GREET".toList ++ [.closing, .closing]) = .ok statements) ∧
      parse sampleRegistry 2 (Token.scan "![pair][a][b![GREET".toList ++ [.closing]) =
        .error (.unexpectedEnd "pair" ⟨1, 0⟩) ∧
      parse sampleRegistry 2 (Token.scan "![pair][![gret".toList ++ [.opening, .char 'h']) =
        .error (.unknownComponent "gret") := by
  have hincomplete : parse sampleRegistry 2 (Token.scan "![pair][a][b![GREET".toList) =
      .error (.unexpectedEnd "greet" ⟨1, 0⟩) := by
    decide +kernel
  have hwrong : parse sampleRegistry 2 (Token.scan "![pair][![gret".toList) =
      .error (.unknownComponent "gret") := by
    decide +kernel
  have hnames : unclosedNames (Token.scan "![pair][a][b![GREET".toList) = ["greet", "pair"] := by
    decide +kernel
  have hcases := (parse_error_append sampleRegistry 2
    (Token.scan "![pair][a][b![GREET".toList)).1 "greet" ⟨1, 0⟩ hincomplete
  simp only [hnames] at hcases
  constructor
  · exact hincomplete
  · constructor
    · exact hnames
    · constructor
      · exact hcases.2.1
      · constructor
        · exact hcases.2.2 1 (by decide)
        · apply (parse_error_append sampleRegistry 2 _).2 _ hwrong
          · intro name shortage h
            cases h
          · intro c h
            cases h

end Markup
end ComponentMarkup
