import ComponentMarkup.Proofs.Script.Names
import ComponentMarkup.Proofs.Script.Numbers

/-!
# Every call makes progress

Tokens are asked for one by one, also behind malformed ones.  A call passes over blanks and
comments and takes the characters of one token, so the characters before a place are divided
among the calls.  The end is reached after as many calls as there are tokens, and stays reached.
-/

namespace ComponentMarkup
namespace Script

/-! ## Tokens end in the code -/

theorem size_readString_le (quote : Char) (seen : List Char) (count : Nat) (place : StringPlace)
    (cs : List Char) : (readString quote seen count place cs).2 ≤ count + cs.length := by
  induction cs generalizing seen count place with
  | nil => cases place <;> exact Nat.le_refl count
  | cons c rest ih =>
      have step (seen : List Char) (place : StringPlace) :
          (readString quote seen (count + 1) place rest).2 ≤ count + (c :: rest).length := by
        have hrest := ih seen (count + 1) place
        rw [List.length_cons]
        omega
      have stop : count + 1 ≤ count + (c :: rest).length := by
        rw [List.length_cons]
        omega
      unfold readString
      dsimp only
      repeat' split
      all_goals first | exact step _ _ | exact stop

theorem size_readNumber_le (cs : List Char) : (readNumber cs).2 ≤ cs.length := by
  unfold readNumber
  split
  · rename_i digits hmark
    have hlength : digits.length + 2 = cs.length := by
      unfold afterHexMark? at hmark
      split at hmark <;> cases hmark <;> rfl
    have hsize : (readHexNumber digits).2 ≤ digits.length := by
      unfold readHexNumber
      dsimp only
      split <;> exact (List.takeWhile_prefix _).length_le
    dsimp only
    omega
  · dsimp only
    split <;> exact (isPrefix_decimalPart cs).length_le

theorem size_readSign_le (c : Char) (rest : List Char) :
    (readSign c rest).2 ≤ (c :: rest).length := by
  unfold readSign
  split <;> simp

theorem size_readToken_le (c : Char) (rest : List Char) :
    (readToken c rest).2 ≤ (c :: rest).length := by
  unfold readToken
  split
  · exact (List.takeWhile_prefix continuesWord).length_le
  · split
    · exact size_readNumber_le (c :: rest)
    · split
      · have hsize := size_readString_le c [] 1 .plain rest
        rwa [Nat.add_comm] at hsize
      · exact size_readSign_le c rest

/-! ## What a call does -/

/-- What is passed over in front of a token or the end of the code: blanks and closed comments,
and in front of the end also a comment that is left open. -/
inductive IsPassed : List Char → List Char → Prop where
  | gap {gap behind} (isGap : IsGap gap) : IsPassed gap behind
  | openComment {gap comment} (isGap : IsGap gap) (isOpen : OpenComment comment) :
      IsPassed (gap ++ comment) []

namespace Source

/-- Ask for the next token: what is read, which is nothing at the end of the code, and the place
behind it. -/
def ask (s : Source) : Option Reading × Source :=
  match s.next? with
  | some (l, after) => (some l.reading, after)
  | none => (none, s.skipGap)

/-- The place behind so many calls. -/
def after (s : Source) : Nat → Source
  | 0 => s
  | calls + 1 => s.ask.2.after calls

theorem after_succ (s : Source) (calls : Nat) : s.after (calls + 1) = (s.after calls).ask.2 := by
  induction calls generalizing s with
  | zero => rfl
  | succ calls ih => exact ih s.ask.2

/-- A call passes over what stands before the next token. -/
theorem exists_passed (s : Source) :
    ∃ gap, s.ahead = gap ++ s.skipGap.ahead ∧ s.skipGap.offset = s.offset + gap.length ∧
      IsPassed gap s.skipGap.ahead := by
  obtain ⟨gap, rest, hsplit, isGap, hrest⟩ := exists_gap s.ahead
  have hsize := isGap.gapSize_append rest
  rw [← hsplit] at hsize
  unfold skipGap skip
  dsimp only
  rw [hsize, hsplit, Nat.add_comm _ gap.length, List.drop_length_add_append]
  rcases hrest with rfl | isOpen | ⟨c, more, rfl, htoken⟩
  · exact ⟨gap, rfl, rfl, .gap isGap⟩
  · rw [isOpen.gapSize_eq, List.drop_length]
    refine ⟨gap ++ rest, (List.append_nil _).symm, ?_, .openComment isGap isOpen⟩
    rw [List.length_append]
  · rw [htoken]
    exact ⟨gap, rfl, rfl, .gap isGap⟩

/-- Where the code has not ended, a call takes the characters of a token. -/
theorem exists_taken (s : Source) :
    s.skipGap.ahead = [] ∧ s.next? = none ∨
      ∃ c rest taken behind, s.skipGap.ahead = c :: rest ∧ c :: rest = taken ++ behind ∧
        taken ≠ [] ∧
        s.next? = some (⟨(readToken c rest).1, s.skipGap.offset + taken.length⟩,
          ⟨s.skipGap.offset + taken.length, behind⟩) := by
  unfold next? readHere?
  cases hahead : s.skipGap.ahead with
  | nil => exact .inl ⟨rfl, rfl⟩
  | cons c rest =>
      have hlength : ((c :: rest).take (readToken c rest).2).length = (readToken c rest).2 :=
        List.length_take_of_le (size_readToken_le c rest)
      refine .inr ⟨c, rest, (c :: rest).take (readToken c rest).2,
        (c :: rest).drop (readToken c rest).2, rfl, (List.take_append_drop _ _).symm, ?_, ?_⟩
      · have hpos := size_readToken_pos c rest
        rw [← List.length_pos_iff, hlength]
        exact hpos
      · rw [hlength]
        dsimp only
        rw [skip, hahead]

theorem next?_of_ahead_nil {s : Source} (h : s.ahead = []) : s.next? = none := by
  rcases s with ⟨offset, ahead⟩
  cases h
  rfl

theorem ask_of_next? {s behind : Source} {l : Lexeme} (h : s.next? = some (l, behind)) :
    s.ask = (some l.reading, behind) := by
  rw [ask, h]

theorem ask_of_next?_eq_none {s : Source} (h : s.next? = none) : s.ask = (none, s.skipGap) := by
  rw [ask, h]

theorem offset_of_next? {s behind : Source} {l : Lexeme} (h : s.next? = some (l, behind)) :
    l.offset = behind.offset := by
  unfold next? readHere? at h
  split at h
  · cases h
  · cases h
    rfl

/-- How a call divides the characters ahead: it passes over the front of them and takes what comes
next, unless nothing does. -/
structure Divides (s : Source) (gap taken : List Char) : Prop where
  ahead : s.ahead = gap ++ (taken ++ s.ask.2.ahead)
  isPassed : IsPassed gap (taken ++ s.ask.2.ahead)
  start : s.skipGap.offset = s.offset + gap.length
  stop : s.ask.2.offset = s.offset + gap.length + taken.length
  atEnd : s.ask.1 = none ↔ taken = []
  isLast : s.ask.1 = none → s.ask.2.ahead = []

theorem exists_divides (s : Source) : ∃ gap taken, s.Divides gap taken := by
  obtain ⟨gap, hahead, hstart, isPassed⟩ := s.exists_passed
  rcases s.exists_taken with ⟨hend, hnext⟩ | ⟨c, rest, taken, behind, hrest, hsplit, hsome, hnext⟩
  · rw [hend] at hahead isPassed
    refine ⟨gap, [], ?_⟩
    constructor
    · rw [ask_of_next?_eq_none hnext, hend]
      exact hahead
    · rw [ask_of_next?_eq_none hnext, hend]
      exact isPassed
    · exact hstart
    · rw [ask_of_next?_eq_none hnext]
      exact hstart
    · simp [ask_of_next?_eq_none hnext]
    · intro _
      rw [ask_of_next?_eq_none hnext, hend]
  · rw [hrest, hsplit] at hahead isPassed
    refine ⟨gap, taken, ?_⟩
    constructor
    · rw [ask_of_next? hnext]
      exact hahead
    · rw [ask_of_next? hnext]
      exact isPassed
    · exact hstart
    · rw [ask_of_next? hnext, hstart]
    · simp [ask_of_next? hnext, hsome]
    · simp [ask_of_next? hnext]

/-- Behind the end a call finds the end again. -/
theorem ask_ask_eq_none {s : Source} (h : s.ask.1 = none) : s.ask.2.ask.1 = none := by
  obtain ⟨gap, taken, hdivides⟩ := s.exists_divides
  rw [ask_of_next?_eq_none (next?_of_ahead_nil (hdivides.isLast h))]

theorem ask_after_eq_none {s : Source} (h : s.ask.1 = none) (calls : Nat) :
    (s.after calls).ask.1 = none := by
  induction calls with
  | zero => exact h
  | succ calls ih =>
      rw [after_succ]
      exact ask_ask_eq_none ih

theorem offset_add_length_ask (s : Source) :
    s.ask.2.offset + s.ask.2.ahead.length = s.offset + s.ahead.length := by
  obtain ⟨gap, taken, hdivides⟩ := s.exists_divides
  have hahead := congrArg List.length hdivides.ahead
  rw [List.length_append, List.length_append] at hahead
  rw [hdivides.stop, hahead]
  omega

/-- Whether a place lies in some code. -/
structure LiesIn (s : Source) (code : String) : Prop where
  ahead : s.ahead = code.toList.drop s.offset
  offset_le : s.offset ≤ code.length

theorem LiesIn.ask {s : Source} {code : String} (h : s.LiesIn code) : s.ask.2.LiesIn code := by
  obtain ⟨gap, taken, hdivides⟩ := s.exists_divides
  have hsplit := h.ahead.symm.trans hdivides.ahead
  have hlength := congrArg List.length hsplit
  rw [List.length_drop, String.length_toList, List.length_append, List.length_append] at hlength
  have hle := h.offset_le
  constructor
  · rw [hdivides.stop, Nat.add_assoc, ← List.length_append, ← List.drop_drop, hsplit,
      ← List.append_assoc, List.drop_left]
  · rw [hdivides.stop]
    omega

end Source

/-! ## Calls on some code -/

/-- The place in some code behind so many calls. -/
def place (code : String) (calls : Nat) : Source :=
  (Source.ofText code).after calls

/-- What a call gives, counted from zero: what is read, or nothing at the end. -/
def answer (code : String) (call : Nat) : Option Reading :=
  (place code call).ask.1

/-- Whether a call passes over the character with a given index. -/
def Passes (code : String) (call index : Nat) : Prop :=
  (place code call).offset ≤ index ∧ index < (place code call).skipGap.offset

/-- Whether the character with a given index belongs to the token of a call. -/
def Takes (code : String) (call index : Nat) : Prop :=
  (place code call).skipGap.offset ≤ index ∧ index < (place code (call + 1)).offset

section Calls

variable {code : String}

theorem place_succ (code : String) (call : Nat) :
    place code (call + 1) = (place code call).ask.2 :=
  Source.after_succ _ call

theorem place_liesIn (code : String) (calls : Nat) : (place code calls).LiesIn code := by
  induction calls with
  | zero => exact ⟨rfl, Nat.zero_le _⟩
  | succ calls ih =>
      rw [place_succ]
      exact ih.ask

theorem offset_monotone (code : String) : Monotone fun calls => (place code calls).offset := by
  refine monotone_nat_of_le_succ fun call => ?_
  obtain ⟨gap, taken, hdivides⟩ := (place code call).exists_divides
  rw [place_succ, hdivides.stop]
  omega

/-- A token takes at least one character. -/
theorem offset_lt_of_answer {call : Nat} (h : answer code call ≠ none) :
    (place code call).offset < (place code (call + 1)).offset := by
  obtain ⟨gap, taken, hdivides⟩ := (place code call).exists_divides
  have hpos := List.length_pos_iff.mpr (mt hdivides.atEnd.mpr h)
  rw [place_succ, hdivides.stop]
  omega

/-- The end is found at the end of the code. -/
theorem offset_of_answer_eq_none {call : Nat} (h : answer code call = none) :
    (place code (call + 1)).offset = code.length := by
  obtain ⟨gap, taken, hdivides⟩ := (place code call).exists_divides
  have hplace := place_liesIn code (call + 1)
  have hend := hplace.ahead
  rw [place_succ, hdivides.isLast h, eq_comm, List.drop_eq_nil_iff, String.length_toList,
    ← place_succ] at hend
  exact Nat.le_antisymm hplace.offset_le hend

theorem answer_behind {call later : Nat} (h : answer code call = none) (hle : call ≤ later) :
    answer code later = none := by
  induction later, hle using Nat.le_induction with
  | base => exact h
  | succ later _ ih =>
      rw [answer, place_succ]
      exact Source.ask_ask_eq_none ih

end Calls

/-! ## The characters of a call -/

/-- A number below some boundary lies between two neighbours, and between no others. -/
theorem exists_between {f : Nat → Nat} (hmono : Monotone f) (hzero : f 0 = 0) {count index : Nat}
    (h : index < f count) :
    ∃ i < count, (f i ≤ index ∧ index < f (i + 1)) ∧
      ∀ other, f other ≤ index ∧ index < f (other + 1) → other = i := by
  have hexists : ∃ i < count, f i ≤ index ∧ index < f (i + 1) := by
    induction count with
    | zero =>
        rw [hzero] at h
        cases h
    | succ count ih =>
        by_cases hbefore : index < f count
        · obtain ⟨i, hi, hbetween⟩ := ih hbefore
          exact ⟨i, hi.trans (Nat.lt_succ_self count), hbetween⟩
        · exact ⟨count, Nat.lt_succ_self count, Nat.le_of_not_lt hbefore, h⟩
  obtain ⟨i, hi, hfirst, hlast⟩ := hexists
  refine ⟨i, hi, ⟨hfirst, hlast⟩, fun other hother => ?_⟩
  rcases Nat.lt_trichotomy other i with hlt | rfl | hlt
  · exact absurd (hmono hlt) (Nat.not_le.mpr (hfirst.trans_lt hother.2))
  · rfl
  · exact absurd (hmono hlt) (Nat.not_le.mpr (hother.1.trans_lt hlast))

theorem passes_or_takes_iff {code : String} {call index : Nat} :
    Passes code call index ∨ Takes code call index ↔
      (place code call).offset ≤ index ∧ index < (place code (call + 1)).offset := by
  obtain ⟨gap, taken, hdivides⟩ := (place code call).exists_divides
  unfold Passes Takes
  rw [place_succ, hdivides.start, hdivides.stop]
  omega

/-- The characters before a place are divided among the calls that have led to it. -/
theorem exists_call {code : String} {calls index : Nat} (h : index < (place code calls).offset) :
    ∃ call < calls, Xor (Passes code call index) (Takes code call index) ∧
      ∀ other, Passes code other index ∨ Takes code other index → other = call := by
  obtain ⟨call, hcall, hbetween, hunique⟩ := exists_between (offset_monotone code) rfl h
  refine ⟨call, hcall, ?_, fun other hother => hunique other (passes_or_takes_iff.mp hother)⟩
  rcases passes_or_takes_iff.mpr hbetween with hpasses | htakes
  · exact .inl ⟨hpasses, fun htakes => absurd htakes.1 (Nat.not_le.mpr hpasses.2)⟩
  · exact .inr ⟨htakes, fun hpasses => absurd htakes.1 (Nat.not_le.mpr hpasses.2)⟩

/-! ## Calls and the tokens of the code -/

theorem fst_lexemesOnto (seen : List Lexeme) (s : Source) :
    (lexemesOnto seen s).1 = seen.reverse ++ (lexemesOnto [] s).1 := by
  -- A token can have any size, so the induction is on the number of characters.
  induction hlength : s.ahead.length using Nat.strongRecOn generalizing seen s with
  | ind length ih =>
      cases hnext : s.next? with
      | none =>
          rw [lexemesOnto_of_next?_eq_none hnext, lexemesOnto_of_next?_eq_none hnext]
          simp
      | some found =>
          obtain ⟨l, behind⟩ := found
          have hshorter : behind.ahead.length < length := by
            rw [← hlength]
            exact Source.length_of_next? hnext
          rw [lexemesOnto_of_next? hnext, lexemesOnto_of_next? hnext,
            ih _ hshorter (l :: seen) behind rfl, ih _ hshorter [l] behind rfl]
          simp

theorem snd_lexemesOnto (seen : List Lexeme) (s : Source) :
    (lexemesOnto seen s).2 = s.offset + s.ahead.length := by
  induction hlength : s.ahead.length using Nat.strongRecOn generalizing seen s with
  | ind length ih =>
      have hkept := s.offset_add_length_ask
      cases hnext : s.next? with
      | none =>
          obtain ⟨gap, taken, hdivides⟩ := s.exists_divides
          have hask := Source.ask_of_next?_eq_none hnext
          have hend := hdivides.isLast (congrArg Prod.fst hask)
          rw [hask] at hkept hend
          rw [hend, List.length_nil, Nat.add_zero, hlength] at hkept
          rw [lexemesOnto]
          split
          · exact hkept
          · rename_i hfound
            rw [hnext] at hfound
            cases hfound
      | some found =>
          obtain ⟨l, behind⟩ := found
          have hshorter : behind.ahead.length < length := by
            rw [← hlength]
            exact Source.length_of_next? hnext
          rw [Source.ask_of_next? hnext, hlength] at hkept
          rw [lexemesOnto_of_next? hnext, ih _ hshorter (l :: seen) behind rfl]
          exact hkept

/-- The tokens are the answers of the calls, each with the place behind it. -/
theorem getElem?_lexemesOnto (s : Source) (call : Nat) :
    (lexemesOnto [] s).1[call]? =
      (s.after call).ask.1.map fun reading => ⟨reading, (s.after (call + 1)).offset⟩ := by
  induction call generalizing s with
  | zero =>
      have hzero : s.after 0 = s := rfl
      rw [Source.after_succ, hzero]
      cases hnext : s.next? with
      | none =>
          rw [lexemesOnto_of_next?_eq_none hnext, Source.ask_of_next?_eq_none hnext]
          rfl
      | some found =>
          obtain ⟨l, behind⟩ := found
          rw [lexemesOnto_of_next? hnext, fst_lexemesOnto, Source.ask_of_next? hnext]
          dsimp only [Option.map_some]
          rw [← Source.offset_of_next? hnext]
          rfl
  | succ call ih =>
      have hstep : ∀ calls, s.after (calls + 1) = s.ask.2.after calls := fun _ => rfl
      cases hnext : s.next? with
      | none =>
          have hend : s.ask.1 = none := congrArg Prod.fst (Source.ask_of_next?_eq_none hnext)
          rw [lexemesOnto_of_next?_eq_none hnext, Source.ask_after_eq_none hend]
          rfl
      | some found =>
          obtain ⟨l, behind⟩ := found
          have hbehind : s.ask.2 = behind := congrArg Prod.snd (Source.ask_of_next? hnext)
          rw [lexemesOnto_of_next? hnext, fst_lexemesOnto, hstep, hstep, hbehind, ← ih behind]
          rfl

/-- Asked for one by one, the tokens of some code come to an end: there are at most as many as
characters, each call moves on unless it finds the end, and behind the end every call finds it
again.  What a call moves past is blanks and comments and then the characters of its token, so
each character before a place belongs to exactly one of the calls that have led there. -/
theorem answers_progress (code : String) :
    (lexemes code).1.length ≤ code.length ∧ (lexemes code).2 = code.length ∧
      ∀ call,
        (lexemes code).1[call]? =
          (answer code call).map (fun reading => ⟨reading, (place code (call + 1)).offset⟩) ∧
        (place code call).LiesIn code ∧
        (answer code call ≠ none →
          (place code call).offset < (place code (call + 1)).offset) ∧
        (answer code call = none → ∀ later ≥ call,
          answer code later = none ∧ (place code (later + 1)).offset = code.length) ∧
        (∃ gap taken, (place code call).Divides gap taken) ∧
        ∀ index < (place code call).offset,
          ∃ earlier < call, Xor (Passes code earlier index) (Takes code earlier index) ∧
            ∀ other, Passes code other index ∨ Takes code other index → other = earlier := by
  have hlisted : ∀ call, (lexemes code).1[call]? =
      (answer code call).map fun reading => ⟨reading, (place code (call + 1)).offset⟩ :=
    getElem?_lexemesOnto (Source.ofText code)
  have hcount : ∀ calls ≤ (lexemes code).1.length, calls ≤ (place code calls).offset := by
    intro calls hcalls
    induction calls with
    | zero => exact Nat.zero_le _
    | succ calls ih =>
        have hbefore := ih (Nat.le_of_succ_le hcalls)
        have hanswer : answer code calls ≠ none := by
          intro hnone
          have hmissing := hlisted calls
          rw [hnone, Option.map_none, List.getElem?_eq_none_iff] at hmissing
          omega
        exact hbefore.trans_lt (offset_lt_of_answer hanswer)
  have hstop : (lexemes code).2 = code.length := by
    have hsum := snd_lexemesOnto [] (Source.ofText code)
    rw [Source.ofText, Nat.zero_add, String.length_toList] at hsum
    exact hsum
  refine ⟨(hcount _ (Nat.le_refl _)).trans (place_liesIn code _).offset_le, hstop, fun call => ?_⟩
  refine ⟨hlisted call, place_liesIn code call, offset_lt_of_answer, ?_,
    (place code call).exists_divides, fun index => exists_call⟩
  intro hnone later hlater
  have hbehind := answer_behind hnone hlater
  exact ⟨hbehind, offset_of_answer_eq_none hbehind⟩

end Script
end ComponentMarkup
