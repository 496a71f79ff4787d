import ComponentMarkup.Proofs.Markup.Descent
import ComponentMarkup.Proofs.Markup.RoundTrip

/-!
# The descent and the reading from left to right

Where the descent reads the statements of a list, the reading from left to right has them in its
state, and each invocation the descent is inside of is open there.  What has still to come of the
tokens ahead is the same at each place the descent gets to, so at the end of the tokens both have
found the same.
-/

namespace ComponentMarkup
namespace Markup

open Binary

/-! ## Outcomes -/

namespace ParseState

/-- What comes of some tokens behind those that have been read. -/
def outcome (registry : Registry) (limit : Nat) (s : ParseState) (tokens : List Token) :
    Except ParseError (List Statement) :=
  tokens.foldlM (step registry limit) s >>= fun after => after.finish registry limit

variable {registry : Registry} {limit : Nat} {current : List Statement}
  {enclosing : List OpenInvocation}

theorem outcome_append {s middle : ParseState} {tokens : List Token} (rest : List Token)
    (h : tokens.foldlM (step registry limit) s = .ok middle) :
    outcome registry limit s (tokens ++ rest) = outcome registry limit middle rest := by
  rw [outcome, foldlM_append_eq_ok h, outcome]

theorem outcome_nil (s : ParseState) :
    outcome registry limit s [] = s.finish registry limit := rfl

theorem outcome_cons (s : ParseState) (t : Token) (rest : List Token) :
    outcome registry limit s (t :: rest) =
      step registry limit s t >>= fun next => outcome registry limit next rest := by
  rw [outcome, List.foldlM_cons, bind_assoc]
  rfl

theorem outcome_outsideName (t : Token) (rest : List Token) :
    outcome registry limit ⟨current, enclosing, none⟩ (t :: rest) =
      outcome registry limit (inStatements ⟨current, enclosing, none⟩ t) rest := by
  rw [outcome_cons, step_outsideName rfl]
  rfl

/-- A text that begins with a letter goes on to the next control sequence. -/
theorem outcome_text (hcurrent : ∀ s ∈ current.head?, s.isText = false) (letter : Char)
    (letters : List Char) (rest : List Token) :
    outcome registry limit ⟨current, enclosing, none⟩
        (.char letter :: (letters.map .char ++ rest)) =
      outcome registry limit
        ⟨.text ((Token.char letter).text ++ String.ofList letters) :: current, enclosing, none⟩
        rest := by
  have hcontent : (Token.char letter).text ++ String.ofList letters =
      String.ofList (letter :: letters) := by
    apply String.toList_inj.mp
    simp [Token.text, Token.source]
  have hne : String.ofList (letter :: letters) ≠ "" := by
    simp
  have hrun : ((letter :: letters).map Token.char).foldlM (step registry limit)
      ⟨current, enclosing, none⟩ =
        .ok ⟨.text (String.ofList (letter :: letters)) :: current, enclosing, none⟩ := by
    rw [← foldlM_newText hne hcurrent enclosing, String.toList_ofList]
  rw [hcontent]
  exact outcome_append rest hrun

theorem outcome_stray {t : Token} (ht : t = .separator ∨ t = .closing) (letters : List Char)
    (rest : List Token) :
    outcome registry limit ⟨current, [], none⟩ (t :: (letters.map .char ++ rest)) =
      outcome registry limit ⟨.text (t.text ++ String.ofList letters) :: current, [], none⟩
        rest := by
  rw [outcome_outsideName]
  rcases ht with rfl | rfl
  · exact outcome_append rest (foldlM_text letters _ current [])
  · exact outcome_append rest (foldlM_text letters _ current [])

/-- What an invocation becomes by the token behind some of its arguments. -/
def afterArguments (name : String) (seen : List (List Statement)) (before : List Statement)
    (enclosing : List OpenInvocation) : Token → Except ParseError ParseState
  | .separator => .ok ⟨[], ⟨name, seen, before⟩ :: enclosing, none⟩
  | .closing => .ok ⟨.invocation name seen.reverse :: before, enclosing, none⟩
  | found => .error (.unexpectedToken name found)

theorem afterName_eq_afterArguments (s : ParseState) (name : String) (t : Token) :
    s.afterName name t = afterArguments name [] s.current s.enclosing t := by
  cases t <;> rfl

/-- What a name leads to where no letter goes on with it. -/
theorem outcome_endsName (letters : List Char) {rest : List Token}
    (hrest : Unlettered rest) :
    outcome registry limit ⟨current, enclosing, some letters⟩ rest =
      resolveName registry limit enclosing letters >>= fun name =>
        match rest with
        | [] => .error (.unexpectedEnd name ⟨1, 0⟩)
        | t :: others =>
            afterArguments name [] current enclosing t >>= fun s =>
              outcome registry limit s others := by
  cases rest with
  | nil => rw [outcome_nil, finish_endsName rfl]
  | cons t others =>
      rw [outcome_cons, step_endsName rfl (fun c hc => hrest c others (by rw [hc])), bind_assoc]
      simp only [afterName_eq_afterArguments]

end ParseState

/-! ## The descent -/

namespace Descent

open ParseState

/-- What ends the statements of a list: the end of the tokens, or the mark behind an
argument. -/
inductive ListEnd : List OpenInvocation → List Token → Prop where
  | tokens (enclosing : List OpenInvocation) : ListEnd enclosing []
  | mark (innermost : OpenInvocation) (outer : List OpenInvocation) (t : Token)
      (rest : List Token) (mark : t = .separator ∨ t = .closing) :
      ListEnd (innermost :: outer) (t :: rest)

variable (registry : Registry) (limit : Nat)

/-- The statements that are found leave off at the end of a list, and from there the outcome is
the same. -/
def StatementsRead (c : Cursor Token) (enclosing : List OpenInvocation)
    (expected : Except ParseError (List Statement)) (found : List Statement) (s : State) : Prop :=
  ∃ after, s = place after enclosing.length ∧ Reaches c after ∧ ListEnd enclosing after.ahead ∧
    expected = outcome registry limit ⟨found.reverse, enclosing, none⟩ after.ahead

/-- With so many tokens ahead at most, and two calls for each of them, the statements of a list
are read as from left to right. -/
def ReadsStatements (count : Nat) : Prop :=
  ∀ (calls : Nat) (c : Cursor Token) (seen : List Statement) (enclosing : List OpenInvocation),
    2 * c.remaining < calls → c.remaining ≤ count →
    c.toList.length < wordCount → enclosing.length ≤ c.index →
    (Unlettered c.ahead ∨ ∀ s ∈ seen.head?, s.isText = false) →
    Meets (statements registry limit calls (!enclosing.isEmpty) seen) (place c enclosing.length)
      (outcome registry limit ⟨seen, enclosing, none⟩ c.ahead)
      (StatementsRead registry limit c enclosing
        (outcome registry limit ⟨seen, enclosing, none⟩ c.ahead))

variable {registry limit} {count : Nat}

theorem arguments_meets (hread : ReadsStatements registry limit count) (name : String)
    (before : List Statement) (enclosing : List OpenInvocation) (seen : List (List Statement))
    (next : Token) {calls : Nat} {c : Cursor Token} (hcalls : 2 * c.remaining + 1 < calls)
    (hcount : c.remaining ≤ count) (hword : c.toList.length < wordCount)
    (hdepth : enclosing.length + 1 ≤ c.index)
    {expected : Except ParseError (List Statement)}
    (hexpected : expected = afterArguments name seen before enclosing next >>= fun s =>
      outcome registry limit s c.ahead) :
    Meets (arguments registry limit calls name seen next) (place c (enclosing.length + 1)) expected
      fun found s => ∃ after, s = place after (enclosing.length + 1) ∧ Reaches c after ∧
        expected = outcome registry limit
          ⟨.invocation name found :: before, enclosing, none⟩ after.ahead := by
  -- The induction is on the tokens ahead: an argument may be empty, but the mark behind it is
  -- taken.
  induction hremaining : c.remaining using Nat.strong_induction_on
    generalizing calls c seen next with
  | h remaining ih =>
      obtain ⟨calls, rfl⟩ := Nat.exists_eq_add_one_of_ne_zero (Nat.ne_zero_of_lt hcalls)
      rw [arguments]
      cases next with
      | char letter => exact meets_of_error rfl hexpected
      | opening => exact meets_of_error rfl hexpected
      | closing => exact meets_of_ok rfl ⟨c, rfl, Reaches.refl c, hexpected⟩
      | separator =>
          have hargument := hread calls c [] (⟨name, seen, before⟩ :: enclosing)
            (Nat.lt_of_succ_lt_succ hcalls) hcount hword hdepth
            (Or.inr fun s hs => (by cases hs))
          have hsame : expected = outcome registry limit
              ⟨[], ⟨name, seen, before⟩ :: enclosing, none⟩ c.ahead := hexpected
          rw [← hsame] at hargument
          refine Meets.bind hargument ?_
          rintro argument _ ⟨⟨passed, ahead⟩, rfl, hreaches, hend, houtcome⟩
          cases hend with
          | tokens =>
              refine meets_of_error (run_bind_of_error (takeToken_place_nil name passed)) ?_
              exact houtcome
          | mark innermost outer t rest mark =>
              have hbehind := hreaches.trans (Reaches.cons passed rest t)
              have hlt : rest.length < remaining := by
                have hle := hreaches.remaining_le
                rw [hremaining] at hle
                exact hle
              have hnext : expected =
                  afterArguments name (argument :: seen) before enclosing t >>= fun s =>
                    outcome registry limit s rest := by
                rw [houtcome, outcome_outsideName]
                rcases mark with rfl | rfl <;>
                  simp [inStatements, afterArguments, bind, Except.bind]
              refine meets_bind_of_ok
                (takeToken_place_cons name (hreaches.lt_wordCount hword)) ?_
              have hfewer : 2 * rest.length + 1 < calls := by omega
              refine Meets.imp (ih rest.length hlt (argument :: seen) t hfewer
                (hbehind.remaining_le.trans hcount) (hbehind.lt_wordCount hword)
                (hdepth.trans hbehind.index_le) hnext rfl) ?_
              rintro found _ ⟨after, rfl, hafter, hfound⟩
              exact ⟨after, rfl, hbehind.trans hafter, hfound⟩

theorem invocation_meets (hread : ReadsStatements registry limit count)
    (before : List Statement) (enclosing : List OpenInvocation) {calls : Nat} {c : Cursor Token}
    (hcalls : 2 * c.remaining + 1 < calls) (hcount : c.remaining ≤ count)
    (hword : c.toList.length < wordCount) (hdepth : enclosing.length + 1 ≤ c.index) :
    Meets (invocation registry limit calls) (place c enclosing.length)
      (outcome registry limit ⟨before, enclosing, some []⟩ c.ahead)
      fun s state => ∃ after, state = place after enclosing.length ∧ Reaches c after ∧
        s.isText = false ∧
        outcome registry limit ⟨before, enclosing, some []⟩ c.ahead =
          outcome registry limit ⟨s :: before, enclosing, none⟩ after.ahead := by
  obtain ⟨calls, rfl⟩ := Nat.exists_eq_add_one_of_ne_zero (Nat.ne_zero_of_lt hcalls)
  obtain ⟨passed, ahead⟩ := c
  obtain ⟨letters, rest, rfl, hrest⟩ := exists_letters ahead
  have hlength : 2 * (letters.length + rest.length) < calls := by
    have hremaining : Cursor.remaining (⟨passed, letters.map .char ++ rest⟩ : Cursor Token) =
        letters.length + rest.length := by
      rw [Cursor.remaining, List.length_append, List.length_map]
    omega
  have hreaches := Reaches.append passed (letters.map .char) rest
  have houtcome :
      outcome registry limit ⟨before, enclosing, some []⟩ (letters.map .char ++ rest) =
        outcome registry limit ⟨before, enclosing, some (letters.reverse ++ [])⟩ rest :=
    outcome_append rest (foldlM_letters letters [] before enclosing)
  rw [outcome_endsName _ hrest, resolveName, List.append_nil, List.reverse_reverse] at houtcome
  rw [invocation]
  refine meets_bind_of_ok (textRun_place hrest hword (by omega) "") ?_
  rw [String.empty_append]
  dsimp only at houtcome ⊢
  generalize Text.lowercase (String.ofList letters) = name at houtcome ⊢
  by_cases hname : (!isComponentName name) = true
  · rw [if_pos hname] at houtcome ⊢
    exact meets_of_error rfl houtcome
  by_cases hknown : (!registry.contains name) = true
  · rw [if_neg hname, if_pos hknown] at houtcome ⊢
    exact meets_of_error rfl houtcome
  rw [if_neg hname, if_neg hknown] at houtcome ⊢
  have hword' : enclosing.length + 1 < wordCount := by
    have hlength := Cursor.length_toList ⟨passed, letters.map .char ++ rest⟩
    omega
  by_cases hlimit : limit ≤ enclosing.length
  · rw [if_pos hlimit] at houtcome
    refine meets_of_error (run_bind_of_error ?_) houtcome
    rw [enter_place hword', if_pos hlimit]
  rw [if_neg hlimit] at houtcome
  refine meets_bind_of_ok ((enter_place hword').trans (if_neg hlimit)) ?_
  cases rest with
  | nil => exact meets_of_error (run_bind_of_error (takeToken_place_nil name _)) houtcome
  | cons t others =>
      have hbehind := hreaches.trans (Reaches.cons _ others t)
      refine meets_bind_of_ok (takeToken_place_cons name (hreaches.lt_wordCount hword)) ?_
      have hcalls' : 2 * others.length + 1 < calls := by
        rw [List.length_cons] at hlength
        omega
      refine Meets.bind (arguments_meets hread name before enclosing [] t hcalls'
        (hbehind.remaining_le.trans hcount) (hbehind.lt_wordCount hword)
        (hdepth.trans hbehind.index_le) houtcome) ?_
      rintro found _ ⟨after, rfl, hafter, hfound⟩
      refine meets_bind_of_ok (leave_place after enclosing.length) ?_
      exact meets_of_ok rfl ⟨after, rfl, hbehind.trans hafter, rfl, hfound⟩

/-- Reading a list goes on from a place behind its start. -/
theorem statements_meets (hread : ReadsStatements registry limit count) {calls : Nat}
    {c middle : Cursor Token} (hreaches : Reaches c middle)
    (hcalls : 2 * middle.remaining < calls) (hcount : middle.remaining ≤ count)
    (hword : c.toList.length < wordCount) {seen : List Statement}
    {enclosing : List OpenInvocation} (hdepth : enclosing.length ≤ c.index)
    (hapart : Unlettered middle.ahead ∨ ∀ s ∈ seen.head?, s.isText = false)
    {expected : Except ParseError (List Statement)}
    (hexpected : expected = outcome registry limit ⟨seen, enclosing, none⟩ middle.ahead) :
    Meets (statements registry limit calls (!enclosing.isEmpty) seen)
      (place middle enclosing.length) expected
      (StatementsRead registry limit c enclosing expected) := by
  have hrest := hread calls middle seen enclosing hcalls hcount (hreaches.lt_wordCount hword)
    (hdepth.trans hreaches.index_le) hapart
  rw [← hexpected] at hrest
  refine Meets.imp hrest ?_
  rintro found _ ⟨after, rfl, hafter, hend, houtcome⟩
  exact ⟨after, rfl, hreaches.trans hafter, hend, houtcome⟩

/-- A text that has begun with a token goes on to the next control sequence, and the list goes on
behind it. -/
theorem text_meets (hread : ReadsStatements registry limit count) {calls : Nat} {t : Token}
    {passed rest : List Token} {letters : List Char} (hrest : Unlettered rest)
    (hcalls : 2 * (letters.map Token.char ++ rest).length + 1 < calls)
    (hcount : (letters.map Token.char ++ rest).length ≤ count)
    (hword : (Cursor.toList ⟨passed, t :: (letters.map .char ++ rest)⟩).length < wordCount)
    {seen : List Statement}
    {enclosing : List OpenInvocation} (hdepth : enclosing.length ≤ passed.length)
    {expected : Except ParseError (List Statement)}
    (hexpected : expected = outcome registry limit
      ⟨.text (t.text ++ String.ofList letters) :: seen, enclosing, none⟩ rest) :
    Meets
      (textRun calls t.text >>= fun content =>
        statements registry limit calls (!enclosing.isEmpty) (.text content :: seen))
      (place ⟨t :: passed, letters.map .char ++ rest⟩ enclosing.length) expected
      (StatementsRead registry limit ⟨passed, t :: (letters.map .char ++ rest)⟩ enclosing
        expected) := by
  have hfirst := Reaches.cons passed (letters.map .char ++ rest) t
  have hbehind := Reaches.append (t :: passed) (letters.map .char) rest
  have hbounds : 2 * (letters.length + rest.length) + 1 < calls := by
    rwa [List.length_append, List.length_map] at hcalls
  have hremaining : 2 * rest.length < calls := by omega
  refine meets_bind_of_ok
    (textRun_place hrest (hfirst.lt_wordCount hword) (by omega) t.text) ?_
  exact statements_meets hread (hfirst.trans hbehind) hremaining
    (hbehind.remaining_le.trans hcount) hword hdepth (Or.inl hrest) hexpected

/-- Outside of all invocations a mark begins a text; inside of one it ends the list, and the
cursor goes back before it. -/
theorem mark_meets (hread : ReadsStatements registry limit count) {calls : Nat} {t : Token}
    (ht : t = .separator ∨ t = .closing) {passed rest : List Token}
    (hcalls : 2 * rest.length + 1 < calls) (hcount : rest.length ≤ count)
    (hword : (Cursor.toList ⟨passed, t :: rest⟩).length < wordCount)
    (seen : List Statement) {enclosing : List OpenInvocation}
    (hdepth : enclosing.length ≤ passed.length) :
    Meets (statements registry limit (calls + 1) (!enclosing.isEmpty) seen)
      (place ⟨passed, t :: rest⟩ enclosing.length)
      (outcome registry limit ⟨seen, enclosing, none⟩ (t :: rest))
      (StatementsRead registry limit ⟨passed, t :: rest⟩ enclosing
        (outcome registry limit ⟨seen, enclosing, none⟩ (t :: rest))) := by
  rw [statements]
  refine meets_bind_of_ok (advance_place hword) ?_
  cases enclosing with
  | nil =>
      obtain ⟨letters, others, rfl, hothers⟩ := exists_letters rest
      have hstray : outcome registry limit ⟨seen, [], none⟩ (t :: (letters.map .char ++ others)) =
          outcome registry limit ⟨.text (t.text ++ String.ofList letters) :: seen, [], none⟩
            others :=
        outcome_stray ht letters others
      rcases ht with rfl | rfl
      · exact text_meets hread hothers hcalls hcount hword hdepth hstray
      · exact text_meets hread hothers hcalls hcount hword hdepth hstray
  | cons innermost outer =>
      have hend := ListEnd.mark innermost outer t rest ht
      have hback : unread.run (place ⟨t :: passed, rest⟩ (innermost :: outer).length) =
          .ok ((), place ⟨passed, t :: rest⟩ (innermost :: outer).length) :=
        unread_place t passed rest
      rcases ht with rfl | rfl
      · refine meets_bind_of_ok hback (meets_of_ok rfl ⟨_, rfl, Reaches.refl _, hend, ?_⟩)
        rw [List.reverse_reverse]
      · refine meets_bind_of_ok hback (meets_of_ok rfl ⟨_, rfl, Reaches.refl _, hend, ?_⟩)
        rw [List.reverse_reverse]

theorem statements_meets_nil (calls : Nat) (passed : List Token)
    (hword : (Cursor.toList (⟨passed, []⟩ : Cursor Token)).length < wordCount)
    (seen : List Statement) (enclosing : List OpenInvocation) :
    Meets (statements registry limit (calls + 1) (!enclosing.isEmpty) seen)
      (place ⟨passed, []⟩ enclosing.length)
      (outcome registry limit ⟨seen, enclosing, none⟩ [])
      (StatementsRead registry limit ⟨passed, []⟩ enclosing
        (outcome registry limit ⟨seen, enclosing, none⟩ [])) := by
  rw [statements]
  refine meets_bind_of_ok (advance_place hword) ?_
  refine meets_of_ok rfl ⟨_, rfl, Reaches.refl _, ListEnd.tokens enclosing, ?_⟩
  rw [List.reverse_reverse]
  rfl

/-- Statements are read however many tokens are ahead.  The induction is on their number: a list
goes on, and an argument begins, only behind a token that has been passed. -/
theorem readsStatements (count : Nat) : ReadsStatements registry limit count := by
  induction count with
  | zero =>
      rintro calls ⟨passed, ahead⟩ seen enclosing hcalls hcount hword _ _
      obtain ⟨calls, rfl⟩ := Nat.exists_eq_add_one_of_ne_zero (Nat.ne_zero_of_lt hcalls)
      cases List.eq_nil_of_length_eq_zero (Nat.le_zero.mp hcount)
      exact statements_meets_nil calls passed hword seen enclosing
  | succ count ih =>
      rintro calls ⟨passed, ahead⟩ seen enclosing hcalls hcount hword hdepth hapart
      obtain ⟨calls, rfl⟩ := Nat.exists_eq_add_one_of_ne_zero (Nat.ne_zero_of_lt hcalls)
      cases ahead with
      | nil => exact statements_meets_nil calls passed hword seen enclosing
      | cons t rest =>
          have hshorter : rest.length ≤ count := Nat.le_of_succ_le_succ hcount
          have hfewer : 2 * rest.length + 1 < calls := by
            have hremaining : Cursor.remaining (⟨passed, t :: rest⟩ : Cursor Token) =
                rest.length + 1 := rfl
            omega
          cases t with
          | opening =>
              have hreaches := Reaches.cons passed rest .opening
              have hname : outcome registry limit ⟨seen, enclosing, none⟩ (.opening :: rest) =
                  outcome registry limit ⟨seen, enclosing, some []⟩ rest :=
                outcome_outsideName .opening rest
              rw [statements]
              refine meets_bind_of_ok (advance_place hword) ?_
              have hinvocation := invocation_meets (c := ⟨.opening :: passed, rest⟩) ih seen
                enclosing hfewer hshorter (hreaches.lt_wordCount hword) (Nat.succ_le_succ hdepth)
              rw [← hname] at hinvocation
              refine Meets.bind hinvocation ?_
              rintro s _ ⟨after, rfl, hafter, hs, houtcome⟩
              have hremaining : after.remaining ≤ rest.length := hafter.remaining_le
              refine statements_meets ih (hreaches.trans hafter) (by omega)
                (hremaining.trans hshorter) hword hdepth (Or.inr ?_) houtcome
              intro other hother
              cases hother
              exact hs
          | char letter =>
              obtain ⟨letters, others, rfl, hothers⟩ := exists_letters rest
              have hcurrent : ∀ s ∈ seen.head?, s.isText = false :=
                hapart.resolve_left fun h => h letter _ rfl
              rw [statements]
              refine meets_bind_of_ok (advance_place hword) ?_
              change Meets (if _ then _ else _) _ _ _
              rw [if_neg (by simp)]
              exact text_meets ih hothers hfewer hshorter hword hdepth
                (outcome_text hcurrent letter letters others)
          | separator => exact mark_meets ih (Or.inl rfl) hfewer hshorter hword seen hdepth
          | closing => exact mark_meets ih (Or.inr rfl) hfewer hshorter hword seen hdepth

/-- The descent ends without a fault, with what comes of the tokens read from left to right. -/
theorem read_eq {tokens : List Token} (hword : tokens.length < wordCount) :
    read registry limit tokens = (parse registry limit tokens).mapError Stop.error := by
  have hmeets : Meets (statements registry limit (2 * tokens.length + 1) false [])
      (place (Cursor.ofList tokens) 0) (parse registry limit tokens)
      (StatementsRead registry limit (Cursor.ofList tokens) [] (parse registry limit tokens)) :=
    readsStatements tokens.length (2 * tokens.length + 1) (Cursor.ofList tokens) [] []
      (Nat.lt_succ_self (2 * tokens.length)) (Nat.le_refl tokens.length) hword (Nat.zero_le 0)
      (Or.inr fun s hs => (by cases hs))
  have hread : read registry limit tokens = Prod.fst <$>
      (statements registry limit (2 * tokens.length + 1) false []).run
        (place (Cursor.ofList tokens) 0) := rfl
  rw [hread]
  unfold Meets at hmeets
  split at hmeets
  · rename_i found s hrun
    obtain ⟨⟨passed, ahead⟩, rfl, hreaches, hend, houtcome⟩ := hmeets
    -- Outside of all invocations a list ends with the tokens only.
    cases hend
    rw [hrun, houtcome, outcome_nil, finish_outsideName rfl]
    simp [Except.mapError]
  · rename_i cause hrun
    rw [hrun, hmeets]
    rfl
  · exact hmeets.elim
  · exact hmeets.elim

/-- A cursor by index answers every run of requests as the split of its sequence does, and stands
between the two parts: there is no fault where a step back is made only behind the start.  The
descent has such a cursor and ends with what comes of its tokens, not with the fault that a step
back from the start is. -/
theorem cursor_refines_split {α : Type} {items : List α} (hitems : items.length < wordCount)
    {requests : List Cursor.Request} (hrequests : (Cursor.ofList items).Permits requests)
    (registry : Registry) (limit : Nat) {tokens : List Token}
    (htokens : tokens.length < wordCount) :
    (∃ (answers : List (Cursor.Answer α)) (c : Cursor α),
      (Cursor.ofList items).run requests = (answers, c) ∧
        (Indexed.ofList items).run requests = .ok (answers, c.indexed) ∧
          c.indexed.StandsBetween items c.passed.reverse c.ahead) ∧
      read registry limit tokens = (parse registry limit tokens).mapError Stop.error := by
  constructor
  · have hsequence : ((Cursor.ofList items).run requests).2.toList = items :=
      Cursor.toList_run (Cursor.ofList items) requests
    have hplace := Cursor.standsBetween_indexed
      (c := ((Cursor.ofList items).run requests).2) (by rwa [hsequence])
    rw [hsequence] at hplace
    have hrun := Cursor.run_indexed (c := Cursor.ofList items) hitems hrequests
    rw [Cursor.indexed_ofList] at hrun
    exact ⟨_, _, rfl, hrun, hplace⟩
  · exact read_eq htokens

/-- The count that is looked for does not fit in a word with the index, and no place in the row
lies so far ahead.  The descent steps back behind the argument. -/
theorem cursor_refines_split_sample :
    (∃ (answers : List (Cursor.Answer Char)) (c : Cursor Char),
      (Cursor.ofList ['a', 'b', 'c']).run
          [.takeOne, .peek 18446744073709551615, .unread, .take 18446744073709551615, .take 2] =
        (answers, c) ∧
      (Indexed.ofList ['a', 'b', 'c']).run
          [.takeOne, .peek 18446744073709551615, .unread, .take 18446744073709551615, .take 2] =
        .ok (answers, c.indexed) ∧
      c.indexed.StandsBetween ['a', 'b', 'c'] c.passed.reverse c.ahead) ∧
    read sampleRegistry 1 (Token.scan "![SHOUT][a]! ]!".toList) =
      .ok [.invocation "shout" [[.text "a"]], .text " ", .text "]!"] := by
  have hparse : parse sampleRegistry 1 (Token.scan "![SHOUT][a]! ]!".toList) =
      .ok [.invocation "shout" [[.text "a"]], .text " ", .text "]!"] := by
    decide +kernel
  have hrequests : (Cursor.ofList ['a', 'b', 'c']).Permits
      [.takeOne, .peek 18446744073709551615, .unread, .take 18446744073709551615, .take 2] := by
    decide
  have hitems : ['a', 'b', 'c'].length < wordCount := by decide
  have htokens : (Token.scan "![SHOUT][a]! ]!".toList).length < wordCount := by decide
  obtain ⟨hcursor, hread⟩ :=
    cursor_refines_split hitems hrequests sampleRegistry 1 htokens
  rw [hparse] at hread
  exact ⟨hcursor, hread⟩

end Descent
end Markup
end ComponentMarkup
