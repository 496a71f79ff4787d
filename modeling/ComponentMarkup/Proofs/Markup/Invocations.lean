import ComponentMarkup.Proofs.Markup.Soundness

/-!
# Invocations in the order of their names

The statements of some tokens invoke the components that are named behind the
opening sequences, in the order of these sequences.
-/

namespace ComponentMarkup
namespace Markup

/-- The names behind the opening sequences, in lower case. -/
def invokedNames : List Token → List String
  | [] => []
  | .opening :: rest => Text.lowercase (String.ofList (nameRun rest)) :: invokedNames rest
  | _ :: rest => invokedNames rest

/-!
# Names in statements
-/

namespace Statement

def name? : Statement → Option String
  | .text _ => none
  | .invocation name _ => some name

/-- The components that statements invoke at any depth, an invocation before those in
its arguments. -/
def invoked (statements : List Statement) : List String :=
  (withinAll statements).filterMap name?

def invokedInArguments (arguments : List (List Statement)) : List String :=
  (withinArguments arguments).filterMap name?

@[simp] theorem invoked_nil : invoked [] = [] := rfl

@[simp] theorem invoked_text_cons (content : String) (rest : List Statement) :
    invoked (.text content :: rest) = invoked rest := rfl

@[simp] theorem invoked_invocation_cons (name : String) (arguments : List (List Statement))
    (rest : List Statement) :
    invoked (.invocation name arguments :: rest) =
      name :: (invokedInArguments arguments ++ invoked rest) := by
  simp [invoked, invokedInArguments, withinAll, within, name?]

@[simp] theorem invokedInArguments_nil : invokedInArguments [] = [] := rfl

@[simp] theorem invokedInArguments_cons (argument : List Statement)
    (rest : List (List Statement)) :
    invokedInArguments (argument :: rest) = invoked argument ++ invokedInArguments rest := by
  simp [invoked, invokedInArguments, withinArguments]

@[simp] theorem invoked_append (statements others : List Statement) :
    invoked (statements ++ others) = invoked statements ++ invoked others := by
  induction statements with
  | nil => rfl
  | cons s rest ih => cases s <;> simp [ih]

@[simp] theorem invokedInArguments_append (arguments others : List (List Statement)) :
    invokedInArguments (arguments ++ others) =
      invokedInArguments arguments ++ invokedInArguments others := by
  induction arguments with
  | nil => rfl
  | cons argument rest ih => simp [ih]

theorem invoked_subset {arguments : List (List Statement)} {argument : List Statement}
    (h : argument ∈ arguments) : invoked argument ⊆ invokedInArguments arguments := by
  apply List.filterMap_subset
  intro s hs
  exact mem_withinArguments.mpr ⟨argument, h, hs⟩

end Statement

/-!
# Reading them
-/

namespace ParseState

open Statement

variable {registry : Registry} {limit : Nat}

/-- The components invoked before the innermost list of statements. -/
def invokedOutside : List OpenInvocation → List String
  | [] => []
  | innermost :: outer =>
      invokedOutside outer ++ invoked innermost.before.reverse ++
        innermost.name :: invokedInArguments innermost.arguments.reverse

/-- The components invoked so far, without one whose name is being read. -/
def invokedRead (s : ParseState) : List String :=
  invokedOutside s.enclosing ++ invoked s.current.reverse

/-- The components that the rest of the tokens names. -/
def invokedAhead (naming : Option (List Char)) (rest : List Token) : List String :=
  match naming with
  | none => invokedNames rest
  | some letters =>
      Text.lowercase (String.ofList (letters.reverse ++ nameRun rest)) :: invokedNames rest

theorem invoked_pushChar (c : Char) (statements : List Statement) :
    invoked (pushChar c statements).reverse = invoked statements.reverse := by
  unfold pushChar
  split <;> simp

theorem invokedAhead_name {enclosing : List OpenInvocation} {letters : List Char}
    {name : String} {t : Token} (rest : List Token)
    (hname : resolveName registry limit enclosing letters = .ok name)
    (ht : t = .separator ∨ t = .closing) :
    invokedAhead (some letters) (t :: rest) = name :: invokedNames rest := by
  have hlower := (resolveName_eq_ok.mp hname).1
  rw [hlower]
  rcases ht with rfl | rfl <;> simp [invokedAhead, nameRun, invokedNames]

theorem invokedRead_step {s after : ParseState} {t : Token}
    (h : Step registry limit s t after) (rest : List Token) :
    after.invokedRead ++ invokedAhead after.naming rest =
      s.invokedRead ++ invokedAhead s.naming (t :: rest) := by
  cases h with
  | letter current enclosing c =>
      simp [invokedRead, invokedAhead, invoked_pushChar, invokedNames]
  | opening current enclosing => simp [invokedRead, invokedAhead, invokedNames]
  | stray current t mark =>
      rcases mark with rfl | rfl <;> simp [invokedRead, invokedAhead, invokedNames]
  | separator current innermost outer =>
      simp [invokedRead, invokedAhead, invokedOutside, invokedNames]
  | closing current innermost outer =>
      simp [invokedRead, invokedAhead, invokedOutside, invokedNames]
  | nameLetter current enclosing letters c =>
      simp [invokedRead, invokedAhead, nameRun, invokedNames]
  | nameSeparator current enclosing letters name resolved =>
      rw [invokedAhead_name rest resolved (Or.inl rfl)]
      simp [invokedRead, invokedAhead, invokedOutside]
  | nameClosing current enclosing letters name resolved =>
      rw [invokedAhead_name rest resolved (Or.inr rfl)]
      simp [invokedRead, invokedAhead]

theorem invokedRead_run {tokens : List Token} {s after : ParseState}
    (h : tokens.foldlM (step registry limit) s = .ok after) :
    after.invokedRead ++ invokedAhead after.naming [] =
      s.invokedRead ++ invokedAhead s.naming tokens :=
  run_conserves (fun s rest => s.invokedRead ++ invokedAhead s.naming rest)
    (fun rest hstep => invokedRead_step hstep rest) h

end ParseState

/-- The statements of some tokens invoke what the tokens name, in the same order. -/
theorem invoked_of_parse {registry : Registry} {limit : Nat} {tokens : List Token}
    {statements : List Statement} (h : parse registry limit tokens = .ok statements) :
    Statement.invoked statements = invokedNames tokens := by
  have hrun := ParseState.invokedRead_run (parse_eq_ok.mp h)
  simpa [ParseState.invokedRead, ParseState.invokedAhead, ParseState.invokedOutside,
    ParseState.start, invokedNames] using hrun

theorem contains_of_mem_invokedNames {registry : Registry} {limit : Nat}
    {tokens : List Token} {statements : List Statement}
    (h : parse registry limit tokens = .ok statements) {name : String}
    (hname : name ∈ invokedNames tokens) : registry.contains name = true := by
  rw [← invoked_of_parse h] at hname
  rcases List.mem_filterMap.mp hname with ⟨s, hs, hsname⟩
  have hsound := (listSound_of_parse h).each s hs
  cases s with
  | text content => cases hsname
  | invocation name arguments =>
      cases hsname
      exact hsound.2.1

end Markup
end ComponentMarkup
