import ComponentMarkup.Proofs.Markup.Reading
import ComponentMarkup.Proofs.Markup.Source

/-!
# What is read is what was written

Reading loses no token and invents none: the statements, written again, are the
source of the tokens with the names in lower case.  The statements are also well
formed at any depth.
-/

namespace ComponentMarkup
namespace Markup
namespace ParseState

open Statement

variable {registry : Registry} {limit : Nat}

/-!
# The source of a state

A state stands for the source read so far.  A name that is being read is not part
of it, because only its end decides how it is lower-cased.
-/

/-- The source read before the innermost list of statements. -/
def sourceOutside : List OpenInvocation → List Char
  | [] => []
  | innermost :: outer =>
      sourceOutside outer ++ source innermost.before.reverse ++
        '!' :: '[' :: (innermost.name.toList ++
          sourceOfArguments innermost.arguments.reverse ++ [']', '['])

/-- The source read so far, without a name that is being read. -/
def sourceRead (s : ParseState) : List Char :=
  sourceOutside s.enclosing ++ source s.current.reverse

/-- The source that the rest of the tokens adds. -/
def sourceAhead (naming : Option (List Char)) (rest : List Token) : List Char :=
  match naming with
  | none => loweredSource rest
  | some letters =>
      '!' :: '[' ::
        ((Text.lowercase (String.ofList (letters.reverse ++ nameRun rest))).toList ++
          loweredSource (behindName rest))

theorem source_pushChar (c : Char) (statements : List Statement) :
    source (pushChar c statements).reverse = source statements.reverse ++ [c] := by
  unfold pushChar
  split
  · simp
  · simp

theorem sourceAhead_name {enclosing : List OpenInvocation} {letters : List Char}
    {name : String} {t : Token} (rest : List Token)
    (hname : resolveName registry limit enclosing letters = .ok name)
    (ht : t = .separator ∨ t = .closing) :
    sourceAhead (some letters) (t :: rest) =
      '!' :: '[' :: (name.toList ++ (t.source ++ loweredSource rest)) := by
  have hlower := (resolveName_eq_ok.mp hname).1
  have ht' : t ≠ .opening := by
    rcases ht with rfl | rfl <;> decide
  have hrun : nameRun (t :: rest) = [] := by
    rcases ht with rfl | rfl <;> rfl
  have hbehind : behindName (t :: rest) = t :: rest := by
    rcases ht with rfl | rfl <;> rfl
  rw [hlower, sourceAhead, hrun, hbehind, List.append_nil, loweredSource_cons ht']

theorem sourceRead_step {s after : ParseState} {t : Token}
    (h : Step registry limit s t after) (rest : List Token) :
    after.sourceRead ++ sourceAhead after.naming rest =
      s.sourceRead ++ sourceAhead s.naming (t :: rest) := by
  cases h with
  | letter current enclosing c =>
      simp [sourceRead, sourceAhead, source_pushChar, loweredSource_cons, Token.source]
  | opening current enclosing =>
      simp [sourceRead, sourceAhead, loweredSource]
  | stray current t mark =>
      rcases mark with rfl | rfl <;>
        simp [sourceRead, sourceAhead, loweredSource_cons, Token.text, Token.source]
  | separator current innermost outer =>
      simp [sourceRead, sourceAhead, sourceOutside, loweredSource_cons, Token.source]
  | closing current innermost outer =>
      simp [sourceRead, sourceAhead, sourceOutside, loweredSource_cons, Token.source]
  | nameLetter current enclosing letters c =>
      simp [sourceRead, sourceAhead, nameRun, behindName]
  | nameSeparator current enclosing letters name resolved =>
      rw [sourceAhead_name rest resolved (Or.inl rfl)]
      simp [sourceRead, sourceAhead, sourceOutside, Token.source]
  | nameClosing current enclosing letters name resolved =>
      rw [sourceAhead_name rest resolved (Or.inr rfl)]
      simp [sourceRead, sourceAhead, Token.source]

theorem sourceRead_run {tokens : List Token} {s after : ParseState}
    (h : tokens.foldlM (step registry limit) s = .ok after) :
    after.sourceRead ++ sourceAhead after.naming [] =
      s.sourceRead ++ sourceAhead s.naming tokens :=
  run_conserves (fun s rest => s.sourceRead ++ sourceAhead s.naming rest)
    (fun rest hstep => sourceRead_step hstep rest) h

end ParseState

/-!
# Well-formed statements
-/

open Statement

/-- A text is not empty and made of the characters written, and an invocation has
the name of a component and no texts side by side in its arguments. -/
def Statement.Sound (registry : Registry) (written : List Char) : Statement → Prop
  | .text content => content ≠ "" ∧ content.toList ⊆ written
  | .invocation name arguments =>
      IsLowerName name ∧ registry.contains name = true ∧
        ∀ argument ∈ arguments, TextsApart argument

/-- What reading guarantees of a list of statements inside `nesting` invocations. -/
structure ListSound (registry : Registry) (written : List Char) (limit nesting : Nat)
    (statements : List Statement) : Prop where
  each : ∀ x ∈ withinAll statements, x.Sound registry written
  nested : depthOfAll statements + nesting ≤ limit
  apart : 0 < nesting → TextsApart statements

namespace ListSound

variable {registry : Registry} {written : List Char} {limit nesting : Nat}
  {statements : List Statement}

theorem nil (h : nesting ≤ limit) : ListSound registry written limit nesting [] where
  each := by
    intro x hx
    cases hx
  nested := by
    rw [depthOfAll, Nat.zero_add]
    exact h
  apart := fun _ => textsApart_nil

theorem nesting_le (h : ListSound registry written limit nesting statements) : nesting ≤ limit :=
  Nat.le_trans (Nat.le_add_left nesting (depthOfAll statements)) h.nested

theorem reverse (h : ListSound registry written limit nesting statements) :
    ListSound registry written limit nesting statements.reverse where
  each := by
    intro x hx
    rcases mem_withinAll.mp hx with ⟨s, hs, hxs⟩
    exact h.each x (mem_withinAll.mpr ⟨s, List.mem_reverse.mp hs, hxs⟩)
  nested := by
    rw [depthOfAll_reverse]
    exact h.nested
  apart := fun hnesting => textsApart_reverse (h.apart hnesting)

theorem tail {s : Statement} (h : ListSound registry written limit nesting (s :: statements)) :
    ListSound registry written limit nesting statements where
  each := by
    intro x hx
    exact h.each x (List.mem_append_right s.within hx)
  nested := by
    have hdepth : depthOfAll statements ≤ depthOfAll (s :: statements) :=
      Nat.le_max_right s.depth (depthOfAll statements)
    exact Nat.le_trans (Nat.add_le_add_right hdepth nesting) h.nested
  apart := fun hnesting => (h.apart hnesting).tail

theorem text_cons {content : String} (hcontent : content ≠ "")
    (hwritten : content.toList ⊆ written)
    (hapart : 0 < nesting → TextsApart (.text content :: statements))
    (h : ListSound registry written limit nesting statements) :
    ListSound registry written limit nesting (.text content :: statements) where
  each := by
    intro x hx
    rcases List.mem_append.mp hx with hfirst | hrest
    · rw [List.mem_singleton.mp hfirst]
      exact ⟨hcontent, hwritten⟩
    · exact h.each x hrest
  nested := by
    rw [depthOfAll, depth, Nat.zero_max]
    exact h.nested
  apart := hapart

theorem invocation_cons {name : String} {arguments : List (List Statement)}
    (hname : IsLowerName name) (hknown : registry.contains name = true)
    (hnesting : nesting < limit)
    (harguments : ∀ argument ∈ arguments, ListSound registry written limit (nesting + 1) argument)
    (h : ListSound registry written limit nesting statements) :
    ListSound registry written limit nesting (.invocation name arguments :: statements) where
  each := by
    intro x hx
    rcases List.mem_append.mp hx with hfirst | hrest
    · rcases List.mem_cons.mp hfirst with rfl | hinside
      · exact ⟨hname, hknown, fun argument hargument =>
          (harguments argument hargument).apart (Nat.succ_pos nesting)⟩
      · rcases mem_withinArguments.mp hinside with ⟨argument, hargument, hxa⟩
        exact (harguments argument hargument).each x hxa
    · exact h.each x hrest
  nested := by
    have hinside : depthOfArguments arguments ≤ limit - (nesting + 1) := by
      rw [depthOfArguments_le]
      intro argument hargument
      exact Nat.le_sub_of_add_le (harguments argument hargument).nested
    have hrest : depthOfAll statements ≤ limit - nesting := Nat.le_sub_of_add_le h.nested
    have hboth : depthOfAll (.invocation name arguments :: statements) ≤ limit - nesting := by
      rw [depthOfAll, depth, Nat.max_le]
      exact ⟨by omega, hrest⟩
    omega
  apart := fun hpos =>
    List.IsChain.cons (h.apart hpos) fun _ _ htexts => Bool.false_ne_true htexts.1

theorem pushChar {c : Char} (hc : c ∈ written)
    (h : ListSound registry written limit nesting statements) :
    ListSound registry written limit nesting (ParseState.pushChar c statements) := by
  have hsingle : String.singleton c ≠ "" := by
    intro hempty
    have hlength := congrArg String.length hempty
    rw [String.length_singleton] at hlength
    cases hlength
  have hsingleWritten : (String.singleton c).toList ⊆ written := by
    simpa using hc
  cases statements with
  | nil => exact h.text_cons hsingle hsingleWritten fun _ => List.IsChain.singleton _
  | cons s rest =>
      cases s with
      | text content =>
          refine h.tail.text_cons ?_ ?_ fun hpos => ?_
          · intro hempty
            have hlength := congrArg String.length hempty
            rw [String.length_push] at hlength
            cases hlength
          · have hcontent := (h.each (.text content) List.mem_cons_self).2
            rw [String.toList_push]
            exact List.append_subset.mpr ⟨hcontent, List.cons_subset.mpr ⟨hc, List.nil_subset _⟩⟩
          · exact textsApart_of_text_cons (h.apart hpos)
      | invocation name arguments =>
          refine h.text_cons hsingle hsingleWritten fun hpos => ?_
          exact List.IsChain.cons_cons (fun htexts => Bool.false_ne_true htexts.2) (h.apart hpos)

end ListSound

namespace ParseState

variable {registry : Registry} {written : List Char} {limit : Nat}

/-- What reading guarantees of the open invocations and the lists around them. -/
def OutsideSound (registry : Registry) (written : List Char) (limit : Nat) :
    List OpenInvocation → Prop
  | [] => True
  | innermost :: outer =>
      IsLowerName innermost.name ∧ registry.contains innermost.name = true ∧
        (∀ argument ∈ innermost.arguments,
          ListSound registry written limit (outer.length + 1) argument) ∧
        ListSound registry written limit outer.length innermost.before ∧
        OutsideSound registry written limit outer

def Sound (registry : Registry) (written : List Char) (limit : Nat) (s : ParseState) : Prop :=
  ListSound registry written limit s.enclosing.length s.current ∧
    OutsideSound registry written limit s.enclosing

theorem sound_start : start.Sound registry written limit :=
  ⟨ListSound.nil (Nat.zero_le limit), trivial⟩

theorem sound_step {s after : ParseState} {t : Token} (ht : t.source ⊆ written)
    (h : Step registry limit s t after) (hs : s.Sound registry written limit) :
    after.Sound registry written limit := by
  obtain ⟨hcurrent, houtside⟩ := hs
  cases h with
  | letter current enclosing c => exact ⟨hcurrent.pushChar (ht List.mem_cons_self), houtside⟩
  | opening current enclosing => exact ⟨hcurrent, houtside⟩
  | stray current t mark =>
      refine ⟨hcurrent.text_cons ?_ ?_ fun hpos => absurd hpos (Nat.lt_irrefl 0), houtside⟩
      · rcases mark with rfl | rfl <;> decide
      · rw [Token.text, String.toList_ofList]
        exact ht
  | separator current innermost outer =>
      obtain ⟨hname, hknown, harguments, hbefore, houter⟩ := houtside
      refine ⟨ListSound.nil hcurrent.nesting_le, hname, hknown, ?_, hbefore, houter⟩
      intro argument hargument
      rcases List.mem_cons.mp hargument with rfl | hearlier
      · exact hcurrent.reverse
      · exact harguments argument hearlier
  | closing current innermost outer =>
      obtain ⟨hname, hknown, harguments, hbefore, houter⟩ := houtside
      refine ⟨ListSound.invocation_cons hname hknown hcurrent.nesting_le ?_ hbefore, houter⟩
      intro argument hargument
      rcases List.mem_cons.mp (List.mem_reverse.mp hargument) with rfl | hearlier
      · exact hcurrent.reverse
      · exact harguments argument hearlier
  | nameLetter current enclosing letters c => exact ⟨hcurrent, houtside⟩
  | nameSeparator current enclosing letters name resolved =>
      obtain ⟨_, hname, hknown, hdepth⟩ := resolveName_eq_ok.mp resolved
      refine ⟨ListSound.nil hdepth, hname, hknown, ?_, hcurrent, houtside⟩
      intro argument hargument
      cases hargument
  | nameClosing current enclosing letters name resolved =>
      obtain ⟨_, hname, hknown, hdepth⟩ := resolveName_eq_ok.mp resolved
      refine ⟨ListSound.invocation_cons hname hknown hdepth ?_ hcurrent, houtside⟩
      intro argument hargument
      cases hargument

end ParseState

/-!
# Statements of some tokens
-/

theorem source_of_parse {registry : Registry} {limit : Nat} {tokens : List Token}
    {statements : List Statement} (h : parse registry limit tokens = .ok statements) :
    source statements = loweredSource tokens := by
  have hrun := ParseState.sourceRead_run (parse_eq_ok.mp h)
  simpa [ParseState.sourceRead, ParseState.sourceAhead, ParseState.sourceOutside,
    ParseState.start, loweredSource] using hrun

theorem listSound_of_parse {registry : Registry} {limit : Nat} {tokens : List Token}
    {statements : List Statement} (h : parse registry limit tokens = .ok statements) :
    ListSound registry (tokens.flatMap Token.source) limit 0 statements := by
  have hsound := ParseState.run_induction
    (fun hmem => ParseState.sound_step fun _ hc => List.mem_flatMap_of_mem hmem hc)
    (parse_eq_ok.mp h) ParseState.sound_start
  simpa using hsound.1.reverse

/-- The statements that are read from tokens are, written again, the source of the
tokens with the names in lower case.  At any depth their invocations have the names
of components and are nested at most `limit` deep, their texts are not empty, and
no two texts of an argument stand side by side. -/
theorem parse_lossless {registry : Registry} {limit : Nat} {tokens : List Token}
    {statements : List Statement} (h : parse registry limit tokens = .ok statements) :
    source statements = loweredSource tokens ∧
      (∀ name arguments, .invocation name arguments ∈ withinAll statements →
        IsLowerName name ∧ registry.contains name = true) ∧
      depthOfAll statements ≤ limit ∧
      (∀ content, .text content ∈ withinAll statements → content ≠ "") ∧
      (∀ name arguments, .invocation name arguments ∈ withinAll statements →
        ∀ argument ∈ arguments, TextsApart argument) := by
  have hsound := listSound_of_parse h
  refine ⟨source_of_parse h, ?_, hsound.nested, ?_, ?_⟩
  · intro name arguments hmem
    obtain ⟨hname, hknown, _⟩ := hsound.each _ hmem
    exact ⟨hname, hknown⟩
  · intro content hmem
    exact (hsound.each _ hmem).1
  · intro name arguments hmem
    obtain ⟨_, _, hapart⟩ := hsound.each _ hmem
    exact hapart

theorem parse_lossless_nested :
    parse sampleRegistry 2 (Token.scan "a ]!![PAIR][x ![greet][y]! z][]!b".toList) =
        .ok [.text "a ", .text "]!",
          .invocation "pair" [[.text "x ", .invocation "greet" [[.text "y"]], .text " z"], []],
          .text "b"] ∧
      source [.text "a ", .text "]!",
          .invocation "pair" [[.text "x ", .invocation "greet" [[.text "y"]], .text " z"], []],
          .text "b"] =
        loweredSource (Token.scan "a ]!![PAIR][x ![greet][y]! z][]!b".toList) := by
  have h : parse sampleRegistry 2 (Token.scan "a ]!![PAIR][x ![greet][y]! z][]!b".toList) =
      .ok [.text "a ", .text "]!",
        .invocation "pair" [[.text "x ", .invocation "greet" [[.text "y"]], .text " z"], []],
        .text "b"] := by
    decide +kernel
  exact ⟨h, (parse_lossless h).1⟩

end Markup
end ComponentMarkup
