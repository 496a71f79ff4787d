import ComponentMarkup.Proofs.Markup.Reading
import ComponentMarkup.Proofs.Markup.Scanning
import ComponentMarkup.Proofs.Markup.Source

/-!
# What is written is read back

Statements are canonical when their source cannot be taken for anything else.
Scanning the source of canonical statements gives the tokens they stand for, and
reading these tokens gives the statements.
-/

namespace ComponentMarkup
namespace Markup

open Statement

/-!
# Canonical statements
-/

/-- Whether a statement can stand directly before another: a text before no other
text, and not before an invocation if it ends in `]`. -/
def Statement.Precedes : Statement → Statement → Prop
  | .text _, .text _ => False
  | .text content, .invocation _ _ => content.toList.getLast? ≠ some ']'
  | .invocation _ _, _ => True

instance : DecidableRel Precedes
  | .text _, .text _ => inferInstanceAs (Decidable False)
  | .text content, .invocation _ _ =>
      inferInstanceAs (Decidable (content.toList.getLast? ≠ some ']'))
  | .invocation _ _, _ => inferInstanceAs (Decidable True)

/-- What a canonical statement is by itself: a text that is not empty and has no
control sequence, or an invocation of a component by its lower-case name. -/
def Statement.Plain (registry : Registry) : Statement → Prop
  | .text content => content ≠ "" ∧ Token.MarkFree content.toList
  | .invocation name arguments =>
      (IsLowerName name ∧ registry.contains name = true) ∧
        ∀ argument ∈ arguments, argument.IsChain Precedes

instance (registry : Registry) : DecidablePred (Plain registry)
  | .text content => inferInstanceAs (Decidable (content ≠ "" ∧ Token.MarkFree content.toList))
  | .invocation name arguments =>
      inferInstanceAs (Decidable ((IsLowerName name ∧ registry.contains name = true) ∧
        ∀ argument ∈ arguments, argument.IsChain Precedes))

/-- Statements whose source cannot be taken for anything else. -/
structure Canonical (registry : Registry) (statements : List Statement) : Prop where
  plain : ∀ s ∈ withinAll statements, s.Plain registry
  ordered : statements.IsChain Precedes

instance (registry : Registry) (statements : List Statement) :
    Decidable (Canonical registry statements) :=
  decidable_of_iff
    ((∀ s ∈ withinAll statements, s.Plain registry) ∧ statements.IsChain Precedes)
    ⟨fun h => ⟨h.1, h.2⟩, fun h => ⟨h.plain, h.ordered⟩⟩

namespace Canonical

variable {registry : Registry} {statements : List Statement}

theorem tail {s : Statement} (h : Canonical registry (s :: statements)) :
    Canonical registry statements where
  plain x hx := h.plain x (List.mem_append_right s.within hx)
  ordered := h.ordered.tail

theorem name_of_cons {name : String} {arguments : List (List Statement)}
    (h : Canonical registry (.invocation name arguments :: statements)) :
    IsLowerName name ∧ registry.contains name = true :=
  (h.plain _ (List.mem_append_left (withinAll statements) List.mem_cons_self)).1

theorem content_of_cons {content : String}
    (h : Canonical registry (.text content :: statements)) :
    content ≠ "" ∧ Token.MarkFree content.toList :=
  h.plain _ (List.mem_append_left (withinAll statements) List.mem_cons_self)

theorem argument_of_cons {name : String} {arguments : List (List Statement)}
    (h : Canonical registry (.invocation name arguments :: statements)) {argument : List Statement}
    (hargument : argument ∈ arguments) : Canonical registry argument where
  plain x hx := by
    apply h.plain
    apply List.mem_append_left
    apply List.mem_cons_of_mem
    exact mem_withinArguments.mpr ⟨argument, hargument, hx⟩
  ordered := by
    have hplain := h.plain _ (List.mem_append_left (withinAll statements) List.mem_cons_self)
    exact hplain.2 argument hargument

end Canonical

/-!
# Scanning the source
-/

theorem not_joins_of_isLowerWordChar {c d : Char} (h : isLowerWordChar c = true) :
    ¬ Token.Joins c d := by
  rintro (⟨rfl, _⟩ | ⟨rfl, _⟩) <;> cases h

theorem scan_name {name : String} (h : IsLowerName name) (rest : List Char) :
    Token.scan (name.toList ++ rest) = name.toList.map .char ++ Token.scan rest := by
  apply Token.scan_append_of_isChain
  · refine (List.isChain_isInfix name.toList).imp fun c d hpair => ?_
    apply not_joins_of_isLowerWordChar
    exact h.2 c (hpair.subset List.mem_cons_self)
  · intro c hlast d _
    exact not_joins_of_isLowerWordChar (h.2 c (List.mem_of_mem_getLast? hlast))

/-- Whether what follows a list of statements is the end or begins with the mark
behind an argument. -/
def EndsList (rest : List Char) : Prop :=
  ∀ d ∈ rest.head?, d = ']'

theorem endsList_sourceOfArguments (arguments : List (List Statement)) {rest : List Char}
    (h : EndsList rest) : EndsList (sourceOfArguments arguments ++ rest) := by
  cases arguments with
  | nil => exact h
  | cons argument others =>
      rw [sourceOfArguments_cons]
      intro d hd
      cases hd
      rfl

/-- The end of a text forms no control sequence with what stands behind it. -/
theorem not_joins_behind_text {registry : Registry} {content : String}
    {others : List Statement} (h : Canonical registry (.text content :: others))
    {rest : List Char} (hrest : EndsList rest) :
    ∀ c ∈ content.toList.getLast?, ∀ d ∈ (source others ++ rest).head?, ¬ Token.Joins c d := by
  intro c hc d hd hjoins
  cases others with
  | nil =>
      rw [hrest d hd] at hjoins
      exact Token.not_joins_closingBracket c hjoins
  | cons s more =>
      have hprecedes := h.ordered.rel
      cases s with
      | text other => exact hprecedes
      | invocation name arguments =>
          rw [source_invocation_cons] at hd
          cases hd
          apply hprecedes
          rw [Option.mem_def.mp hc, Token.joins_exclamation hjoins]

theorem scan_sourceOfArguments {arguments : List (List Statement)}
    (hscan : ∀ argument ∈ arguments, ∀ rest, EndsList rest →
      Token.scan (source argument ++ rest) = tokensOfAll argument ++ Token.scan rest)
    {rest : List Char} (hrest : EndsList rest) :
    Token.scan (sourceOfArguments arguments ++ rest) =
      tokensOfArguments arguments ++ Token.scan rest := by
  induction arguments with
  | nil => rfl
  | cons argument others ih =>
      have hothers := ih fun other hother => hscan other (List.mem_cons_of_mem argument hother)
      have hfirst := hscan argument List.mem_cons_self (sourceOfArguments others ++ rest)
        (endsList_sourceOfArguments others hrest)
      simp only [sourceOfArguments_cons, List.cons_append, List.append_assoc]
      rw [Token.scan_separator, hfirst, hothers]
      simp [tokensOfArguments]

theorem scan_source {registry : Registry} {statements : List Statement}
    (h : Canonical registry statements) {rest : List Char} (hrest : EndsList rest) :
    Token.scan (source statements ++ rest) = tokensOfAll statements ++ Token.scan rest := by
  induction statements using Statement.listInduction generalizing rest with
  | nil => rfl
  | text content others ih =>
      have hplain := Token.markFree_iff_isChain.mp h.content_of_cons.2
      rw [source_text_cons, List.append_assoc,
        Token.scan_append_of_isChain hplain (not_joins_behind_text h hrest), ih h.tail hrest,
        tokensOfAll, tokens, List.append_assoc]
  | invocation name arguments others harguments ih =>
      have hinside : EndsList (']' :: '!' :: (source others ++ rest)) := by
        intro d hd
        cases hd
        rfl
      have hscan := scan_sourceOfArguments (fun argument hargument more hmore =>
        harguments argument hargument (h.argument_of_cons hargument) hmore) hinside
      have hname := scan_name h.name_of_cons.1
      simp only [source_invocation_cons, List.cons_append, List.append_assoc]
      rw [Token.scan_opening, hname, hscan, Token.scan_closing, ih h.tail hrest]
      simp [tokensOfAll, tokens]

/-!
# Reading the tokens
-/

namespace ParseState

variable {registry : Registry} {limit : Nat}

theorem foldlM_append_eq_ok {tokens others : List Token} {s middle : ParseState}
    (h : tokens.foldlM (step registry limit) s = .ok middle) :
    (tokens ++ others).foldlM (step registry limit) s =
      others.foldlM (step registry limit) middle := by
  rw [List.foldlM_append, h]
  rfl

theorem foldlM_text (cs : List Char) (content : String) (current : List Statement)
    (enclosing : List OpenInvocation) :
    (cs.map Token.char).foldlM (step registry limit)
        ⟨.text content :: current, enclosing, none⟩ =
      .ok ⟨.text (content ++ String.ofList cs) :: current, enclosing, none⟩ := by
  induction cs generalizing content with
  | nil =>
      rw [String.ofList_nil, String.append_empty]
      rfl
  | cons c rest ih =>
      have hpush : content.push c ++ String.ofList rest = content ++ String.ofList (c :: rest) := by
        apply String.toList_inj.mp
        simp
      exact (ih (content.push c)).trans (by rw [hpush])

theorem foldlM_newText {content : String} (hcontent : content ≠ "")
    {current : List Statement} (hcurrent : ∀ s ∈ current.head?, s.isText = false)
    (enclosing : List OpenInvocation) :
    (content.toList.map Token.char).foldlM (step registry limit) ⟨current, enclosing, none⟩ =
      .ok ⟨.text content :: current, enclosing, none⟩ := by
  cases hcs : content.toList with
  | nil => exact absurd (String.toList_eq_nil_iff.mp hcs) hcontent
  | cons c rest =>
      have hpush : pushChar c current = .text (String.singleton c) :: current := by
        cases current with
        | nil => rfl
        | cons s others =>
            cases s with
            | text other => cases hcurrent _ rfl
            | invocation name arguments => rfl
      have hsplit : String.singleton c ++ String.ofList rest = content := by
        apply String.toList_inj.mp
        simp [hcs]
      rw [List.map_cons, foldlM_cons_eq_ok]
      refine ⟨_, Step.letter current enclosing c, ?_⟩
      rw [hpush, foldlM_text, hsplit]

theorem foldlM_letters (cs letters : List Char) (current : List Statement)
    (enclosing : List OpenInvocation) :
    (cs.map Token.char).foldlM (step registry limit) ⟨current, enclosing, some letters⟩ =
      .ok ⟨current, enclosing, some (cs.reverse ++ letters)⟩ := by
  induction cs generalizing letters with
  | nil => rfl
  | cons c rest ih =>
      rw [List.map_cons, foldlM_cons_eq_ok]
      refine ⟨_, Step.nameLetter current enclosing letters c, ?_⟩
      rw [ih (c :: letters)]
      simp

theorem resolveName_of_isLowerName {name : String} (hname : IsLowerName name)
    (hknown : registry.contains name = true) {enclosing : List OpenInvocation}
    (hdepth : enclosing.length < limit) :
    resolveName registry limit enclosing (name.toList.reverse ++ []) = .ok name := by
  rw [resolveName_eq_ok]
  refine ⟨?_, hname, hknown, hdepth⟩
  simp [lowercase_of_isLowerName hname]

/-- A name behind its opening sequence leads to the mark behind it. -/
theorem foldlM_name {name : String} (current : List Statement)
    (enclosing : List OpenInvocation) (rest : List Token) :
    (Token.opening :: (name.toList.map Token.char ++ rest)).foldlM (step registry limit)
        ⟨current, enclosing, none⟩ =
      rest.foldlM (step registry limit)
        ⟨current, enclosing, some (name.toList.reverse ++ [])⟩ :=
  foldlM_append_eq_ok (foldlM_letters name.toList [] current enclosing)

theorem isText_behind_text {content : String} {others : List Statement}
    (h : (Statement.text content :: others).IsChain Precedes) :
    ∀ next ∈ others.head?, next.isText = false := by
  intro next hnext
  cases others with
  | nil => cases hnext
  | cons s more =>
      cases hnext
      cases next with
      | text other => exact h.rel.elim
      | invocation name arguments => rfl

/-- The tokens behind an argument complete its invocation. -/
theorem foldlM_tokensOfArguments {arguments : List (List Statement)}
    (hread : ∀ argument ∈ arguments, ∀ enclosing,
      depthOfAll argument + enclosing.length ≤ limit →
        (tokensOfAll argument).foldlM (step registry limit) ⟨[], enclosing, none⟩ =
          .ok ⟨argument.reverse ++ [], enclosing, none⟩)
    (current : List Statement) (innermost : OpenInvocation) (outer : List OpenInvocation)
    (hdepth : depthOfArguments arguments + (outer.length + 1) ≤ limit) :
    (tokensOfArguments arguments ++ [Token.closing]).foldlM (step registry limit)
        ⟨current, innermost :: outer, none⟩ =
      .ok ⟨.invocation innermost.name
        (innermost.arguments.reverse ++ current.reverse :: arguments) :: innermost.before,
        outer, none⟩ := by
  induction arguments generalizing current innermost with
  | nil =>
      rw [tokensOfArguments, List.nil_append, foldlM_cons_eq_ok]
      refine ⟨_, Step.closing current innermost outer, ?_⟩
      rw [List.reverse_cons]
      rfl
  | cons argument others ih =>
      obtain ⟨hargument, hothers⟩ := depthOfArguments_cons_add_le.mp hdepth
      have hfirst := hread argument List.mem_cons_self
        (⟨innermost.name, current.reverse :: innermost.arguments, innermost.before⟩ :: outer)
        hargument
      have hclose := ih (fun other hother => hread other (List.mem_cons_of_mem argument hother))
        (argument.reverse ++ [])
        ⟨innermost.name, current.reverse :: innermost.arguments, innermost.before⟩ hothers
      rw [tokensOfArguments, List.cons_append, foldlM_cons_eq_ok]
      refine ⟨_, Step.separator current innermost outer, ?_⟩
      rw [List.append_assoc, foldlM_append_eq_ok hfirst, hclose]
      simp

theorem foldlM_invocation {name : String} {arguments : List (List Statement)}
    {enclosing : List OpenInvocation}
    (hresolved : resolveName registry limit enclosing (name.toList.reverse ++ []) = .ok name)
    (hread : ∀ argument ∈ arguments, ∀ enclosing,
      depthOfAll argument + enclosing.length ≤ limit →
        (tokensOfAll argument).foldlM (step registry limit) ⟨[], enclosing, none⟩ =
          .ok ⟨argument.reverse ++ [], enclosing, none⟩)
    (hdepth : depthOfArguments arguments + (enclosing.length + 1) ≤ limit)
    (current : List Statement) :
    (tokens (.invocation name arguments)).foldlM (step registry limit)
        ⟨current, enclosing, none⟩ =
      .ok ⟨.invocation name arguments :: current, enclosing, none⟩ := by
  rw [tokens, List.append_assoc, foldlM_name]
  cases arguments with
  | nil =>
      rw [tokensOfArguments, List.nil_append, foldlM_cons_eq_ok]
      exact ⟨_, Step.nameClosing current enclosing _ name hresolved, rfl⟩
  | cons argument rest =>
      obtain ⟨hargument, hrest⟩ := depthOfArguments_cons_add_le.mp hdepth
      have hfirst := hread argument List.mem_cons_self (⟨name, [], current⟩ :: enclosing) hargument
      have hclose := foldlM_tokensOfArguments
        (fun other hother => hread other (List.mem_cons_of_mem argument hother))
        (argument.reverse ++ []) ⟨name, [], current⟩ enclosing hrest
      rw [tokensOfArguments, List.cons_append, foldlM_cons_eq_ok]
      refine ⟨_, Step.nameSeparator current enclosing _ name hresolved, ?_⟩
      rw [List.append_assoc, foldlM_append_eq_ok hfirst, hclose]
      simp

theorem foldlM_tokensOfAll {statements : List Statement} (h : Canonical registry statements)
    (current : List Statement) (enclosing : List OpenInvocation)
    (hcurrent : ∀ s ∈ current.head?, s.isText = true →
      ∀ next ∈ statements.head?, next.isText = false)
    (hdepth : depthOfAll statements + enclosing.length ≤ limit) :
    (tokensOfAll statements).foldlM (step registry limit) ⟨current, enclosing, none⟩ =
      .ok ⟨statements.reverse ++ current, enclosing, none⟩ := by
  induction statements using Statement.listInduction generalizing current enclosing with
  | nil => rfl
  | text content others ih =>
      have hapart : ∀ s ∈ current.head?, s.isText = false := by
        intro s hs
        rw [Bool.eq_false_iff]
        intro htext
        exact Bool.false_ne_true (hcurrent s hs htext (.text content) rfl).symm
      have hothers := ih h.tail (.text content :: current) enclosing
        (fun _ _ _ => isText_behind_text h.ordered) (depthOfAll_cons_add_le.mp hdepth).2
      rw [tokensOfAll, tokens,
        foldlM_append_eq_ok (foldlM_newText h.content_of_cons.1 hapart enclosing), hothers]
      simp
  | invocation name arguments others harguments ih =>
      obtain ⟨hname, hknown⟩ := h.name_of_cons
      obtain ⟨hfirst, hrest⟩ := depthOfAll_cons_add_le.mp hdepth
      rw [depth, Nat.add_assoc, Nat.add_comm 1] at hfirst
      have hresolved := resolveName_of_isLowerName hname hknown
        (Nat.le_trans (Nat.le_add_left _ _) hfirst)
      have hread := foldlM_invocation hresolved
        (fun argument hargument enclosing =>
          harguments argument hargument (h.argument_of_cons hargument) [] enclosing
            (by
              intro s hs
              cases hs)) hfirst current
      have hothers := ih h.tail (.invocation name arguments :: current) enclosing
        (by
          intro s hs htext
          cases hs
          cases htext) hrest
      rw [tokensOfAll, foldlM_append_eq_ok hread, hothers]
      simp

end ParseState

/-- Scanning the source of canonical statements and reading the tokens gives the
statements back. -/
theorem parse_source {registry : Registry} {statements : List Statement}
    (h : Canonical registry statements) {tokenLimit nestingLimit : Nat}
    (htokens : (tokensOfAll statements).length ≤ tokenLimit)
    (hdepth : depthOfAll statements ≤ nestingLimit) :
    tokenize tokenLimit (String.ofList (source statements)) = .ok (tokensOfAll statements) ∧
      parse registry nestingLimit (tokensOfAll statements) = .ok statements := by
  constructor
  · have hend : EndsList [] := by
      intro d hd
      cases hd
    have hscan := scan_source h hend
    rw [List.append_nil, Token.scan_nil, List.append_nil] at hscan
    unfold tokenize
    rw [String.toList_ofList, hscan]
    exact if_neg (Nat.not_lt.mpr htokens)
  · rw [parse_eq_ok]
    have hfirst : ∀ s ∈ ([] : List Statement).head?, s.isText = true →
        ∀ next ∈ statements.head?, next.isText = false := by
      intro s hs
      cases hs
    have hread := ParseState.foldlM_tokensOfAll h [] [] hfirst hdepth
    rw [List.append_nil] at hread
    exact hread

/-- Statements with brackets and exclamation marks at the ends of their texts. -/
def bracketSample : List Statement :=
  [.invocation "pair" [[.text "a]"], [.text "!", .invocation "hr" [], .text "[x]"]],
    .invocation "greet" [[]], .text "[!"]

theorem parse_source_brackets :
    String.ofList (source bracketSample) = "![pair][a]][!![hr]![x]]!![greet][]![!" ∧
      tokenize 28 (String.ofList (source bracketSample)) = .ok (tokensOfAll bracketSample) ∧
      parse sampleRegistry 2 (tokensOfAll bracketSample) = .ok bracketSample :=
  ⟨by decide +kernel,
    parse_source (by decide +kernel) (by decide +kernel) (by decide +kernel)⟩

end Markup
end ComponentMarkup
