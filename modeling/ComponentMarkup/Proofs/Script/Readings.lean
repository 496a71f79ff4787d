import ComponentMarkup.Proofs.Text.Spans
import ComponentMarkup.Script.Scan
import Mathlib.Data.List.TakeWhile

/-!
# What is read, wherever it stands

The tokens of some characters do not depend on the place at which the characters stand,
so a text is read by reading one token and then the rest.
-/

namespace ComponentMarkup
namespace Script

theorem gapSize_add (gap : Gap) (count more : Nat) (cs : List Char) :
    gapSize gap (count + more) cs = gapSize gap count cs + more := by
  induction cs generalizing gap count with
  | nil => rfl
  | cons c rest ih =>
      have hnext : ∀ (gap : Gap) (step : Nat),
          gapSize gap (count + more + step) rest = gapSize gap (count + step) rest + more := by
        intro gap step
        rw [Nat.add_right_comm, ih]
      cases gap with
      | blanks =>
          rw [gapSize, gapSize]
          split
          · exact hnext .blanks 1
          · split
            · exact ih .slash count
            · rfl
      | slash =>
          rw [gapSize, gapSize]
          split
          · exact hnext .lineComment 2
          · split
            · exact hnext .blockComment 2
            · rfl
      | lineComment =>
          rw [gapSize, gapSize]
          split
          · exact hnext .blanks 1
          · exact hnext .lineComment 1
      | blockComment =>
          rw [gapSize, gapSize]
          split
          · exact hnext .blockStar 1
          · exact hnext .blockComment 1
      | blockStar =>
          rw [gapSize, gapSize]
          split
          · exact hnext .blanks 1
          · split
            · exact hnext .blockStar 1
            · exact hnext .blockComment 1

theorem gapSize_of_start {c : Char} (hblank : Text.isBlank c = false) (hslash : c ≠ '/')
    (count : Nat) (rest : List Char) : gapSize .blanks count (c :: rest) = count := by
  rw [gapSize, hblank, if_neg Bool.false_ne_true, if_neg hslash]

/-- What is read of some characters: tokens, or the reasons why there are none. -/
def readings (cs : List Char) : List Reading :=
  (lexemesOnto [] ⟨0, cs⟩).1.map Lexeme.reading

theorem lexemesOnto_of_next? {seen : List Lexeme} {s after : Source} {l : Lexeme}
    (h : s.next? = some (l, after)) : lexemesOnto seen s = lexemesOnto (l :: seen) after := by
  rw [lexemesOnto]
  split
  · rename_i hnone
    rw [h] at hnone
    cases hnone
  · rename_i hnext
    rw [h] at hnext
    cases hnext
    rfl

theorem lexemesOnto_of_next?_eq_none {seen : List Lexeme} {s : Source} (h : s.next? = none) :
    (lexemesOnto seen s).1 = seen.reverse := by
  rw [lexemesOnto]
  split
  · rfl
  · rename_i hnext
    rw [h] at hnext
    cases hnext

/-- The next token is the same at every place. -/
theorem next?_at (place : Nat) (cs : List Char) :
    Source.next? ⟨place, cs⟩ =
      (Source.next? ⟨0, cs⟩).map fun found =>
        (⟨found.1.reading, place + found.1.offset⟩,
          ⟨place + found.2.offset, found.2.ahead⟩) := by
  unfold Source.next? Source.skipGap Source.skip Source.readHere?
  dsimp only
  cases cs.drop (gapSize .blanks 0 cs) with
  | nil => rfl
  | cons c rest => simp [Source.skip, Nat.add_assoc]

/-- What is read behind other lexemes, from any place on, is what is read alone. -/
theorem map_reading_lexemesOnto (seen : List Lexeme) (place : Nat) (cs : List Char) :
    (lexemesOnto seen ⟨place, cs⟩).1.map Lexeme.reading =
      seen.reverse.map Lexeme.reading ++ readings cs := by
  -- A token can have any size, so the induction is on the number of characters.
  induction hlength : cs.length using Nat.strongRecOn generalizing seen place cs with
  | ind length ih =>
      have hmoved := next?_at place cs
      cases hnext : Source.next? ⟨0, cs⟩ with
      | none =>
          rw [hnext] at hmoved
          rw [readings, lexemesOnto_of_next?_eq_none hmoved, lexemesOnto_of_next?_eq_none hnext]
          simp
      | some found =>
          rcases found with ⟨l, after⟩
          have hshorter : after.ahead.length < length := by
            rw [← hlength]
            exact Source.length_of_next? hnext
          rw [hnext] at hmoved
          rw [readings, lexemesOnto_of_next? hmoved, lexemesOnto_of_next? hnext,
            ih _ hshorter _ _ after.ahead rfl, ih _ hshorter _ after.offset after.ahead rfl]
          simp

theorem readings_of_next? {cs rest : List Char} {l : Lexeme} {place : Nat}
    (h : Source.next? ⟨0, cs⟩ = some (l, ⟨place, rest⟩)) :
    readings cs = l.reading :: readings rest := by
  rw [readings, lexemesOnto_of_next? h, map_reading_lexemesOnto]
  rfl

theorem readings_nil : readings [] = [] := by
  have hnext : Source.next? ⟨0, []⟩ = none := rfl
  rw [readings, lexemesOnto_of_next?_eq_none hnext]
  rfl

/-! ## One token or gap at the front -/

/-- What stands between two tokens is passed over. -/
theorem readings_of_gapSize {gap rest : List Char}
    (h : gapSize .blanks 0 (gap ++ rest) = gapSize .blanks 0 rest + gap.length) :
    readings (gap ++ rest) = readings rest := by
  have hnext : Source.next? ⟨0, gap ++ rest⟩ = Source.next? ⟨gap.length, rest⟩ := by
    unfold Source.next? Source.skipGap Source.skip
    dsimp only
    rw [h, Nat.add_comm _ gap.length, List.drop_length_add_append, Nat.zero_add]
  rw [next?_at gap.length rest] at hnext
  cases hfound : Source.next? ⟨0, rest⟩ with
  | none =>
      rw [hfound] at hnext
      rw [readings, readings, lexemesOnto_of_next?_eq_none hnext,
        lexemesOnto_of_next?_eq_none hfound]
  | some found =>
      rw [hfound] at hnext
      rw [readings_of_next? hnext, readings_of_next? hfound]

theorem gapSize_of_isBlank {c : Char} (h : Text.isBlank c = true) (rest : List Char) :
    gapSize .blanks 0 (c :: rest) = gapSize .blanks 0 rest + 1 := by
  rw [gapSize, if_pos h]
  exact gapSize_add .blanks 0 1 rest

theorem readings_of_isBlank {c : Char} (h : Text.isBlank c = true) (rest : List Char) :
    readings (c :: rest) = readings rest := by
  have hgap : gapSize .blanks 0 ([c] ++ rest) = gapSize .blanks 0 rest + [c].length :=
    gapSize_of_isBlank h rest
  exact readings_of_gapSize hgap

theorem readings_of_readToken {c : Char} {rest : List Char} {reading : Reading} {size : Nat}
    (hgap : gapSize .blanks 0 (c :: rest) = 0) (h : readToken c rest = (reading, size)) :
    readings (c :: rest) = reading :: readings ((c :: rest).drop size) := by
  have hnext : Source.next? ⟨0, c :: rest⟩ =
      some (⟨reading, 0 + size⟩, ⟨0 + size, (c :: rest).drop size⟩) := by
    unfold Source.next? Source.skipGap
    dsimp only
    rw [hgap]
    unfold Source.readHere? Source.skip
    rw [List.drop_zero]
    dsimp only
    rw [h]
  exact readings_of_next? hnext

/-- A text that is read as one token, and what stands behind it. -/
theorem readings_token {c : Char} {more rest : List Char} {reading : Reading}
    (hgap : gapSize .blanks 0 (c :: (more ++ rest)) = 0)
    (h : readToken c (more ++ rest) = (reading, (c :: more).length)) :
    readings (c :: more ++ rest) = reading :: readings rest := by
  rw [List.cons_append, readings_of_readToken hgap h, ← List.cons_append, List.drop_left]

theorem readings_semicolon (rest : List Char) :
    readings (';' :: rest) = .ok .semicolon :: readings rest :=
  readings_of_readToken rfl rfl

/-! ## Words -/

/-- The codes of the blank characters. -/
def blankCodes : List Nat :=
  [0x09, 0x0A, 0x0B, 0x0C, 0x0D, 0x20, 0x85, 0xA0, 0x1680, 0x2000, 0x2001, 0x2002, 0x2003,
    0x2004, 0x2005, 0x2006, 0x2007, 0x2008, 0x2009, 0x200A, 0x2028, 0x2029, 0x202F, 0x205F,
    0x3000]

theorem mem_blankCodes {c : Char} (h : Text.isBlank c = true) : c.toNat ∈ blankCodes := by
  simp only [Text.isBlank, Bool.or_eq_true, Bool.and_eq_true, beq_iff_eq, decide_eq_true_eq] at h
  simp only [blankCodes, List.mem_cons, List.not_mem_nil, or_false]
  omega

/-- What holds of characters one by one. -/
theorem of_mem_codes {P : Char → Prop} {codes : List Nat}
    (hall : ∀ code ∈ codes, P (Char.ofNat code)) {c : Char} (h : c.toNat ∈ codes) : P c := by
  have hcode := hall _ h
  rw [Char.ofNat_toNat] at hcode
  exact hcode

theorem of_isBlank {P : Char → Prop} (hall : ∀ code ∈ blankCodes, P (Char.ofNat code)) {c : Char}
    (h : Text.isBlank c = true) : P c :=
  of_mem_codes hall (mem_blankCodes h)

/-- No word goes on with a blank. -/
theorem continuesWord_of_isBlank {c : Char} (h : Text.isBlank c = true) :
    continuesWord c = false :=
  of_isBlank (P := fun c => continuesWord c = false) (by decide +kernel) h

/-- A word starts outside of blanks and comments. -/
theorem gapSize_of_startsWord {c : Char} (h : startsWord c = true) (rest : List Char) :
    gapSize .blanks 0 (c :: rest) = 0 := by
  have hblank : Text.isBlank c = false := by
    rw [Bool.eq_false_iff]
    intro hblank
    have hcontinues := startsWord_continuesWord h
    rw [continuesWord_of_isBlank hblank] at hcontinues
    cases hcontinues
  have hslash : c ≠ '/' := by
    intro hc
    rw [hc] at h
    exact absurd h (by decide)
  exact gapSize_of_start hblank hslash 0 rest

/-- A word is read up to the first character that cannot go on with it. -/
theorem readings_word {c : Char} {more rest : List Char} (hstart : startsWord c = true)
    (hword : ∀ d ∈ more, continuesWord d = true)
    (hrest : ∀ d ∈ rest.head?, continuesWord d = false) :
    readings (c :: more ++ rest) =
      .ok (Token.ofWord (String.ofList (c :: more))) :: readings rest := by
  have hall : ∀ d ∈ c :: more, continuesWord d = true :=
    List.forall_mem_cons.mpr ⟨startsWord_continuesWord hstart, hword⟩
  have htake : (c :: (more ++ rest)).takeWhile continuesWord = c :: more := by
    rw [← List.cons_append, Text.takeWhile_append_stopped hall hrest]
  have hread : readToken c (more ++ rest) =
      (.ok (Token.ofWord (String.ofList (c :: more))), (c :: more).length) := by
    rw [readToken, if_pos hstart, readWord, htake]
  exact readings_token (gapSize_of_startsWord hstart _) hread

/-! ## The tokens of code -/

theorem splitMalformedOnto_of_ok {ls : List Lexeme} {ts : List Token}
    (h : ls.map Lexeme.reading = ts.map .ok) (seen : List Token) :
    splitMalformedOnto seen ls = (seen.reverse ++ ts, none) := by
  induction ls generalizing ts seen with
  | nil =>
      cases ts with
      | nil => simp [splitMalformedOnto]
      | cons t ts => cases h
  | cons l ls ih =>
      cases ts with
      | nil => cases h
      | cons t ts =>
          obtain ⟨reading, offset⟩ := l
          obtain ⟨rfl, hrest⟩ := List.cons_eq_cons.mp h
          rw [splitMalformedOnto, ih hrest]
          simp

theorem splitMalformedOnto_eq_none {ls : List Lexeme} {seen ts : List Token}
    (h : splitMalformedOnto seen ls = (ts, none)) :
    ∃ found, ts = seen.reverse ++ found ∧ ls.map Lexeme.reading = found.map .ok := by
  induction ls generalizing seen with
  | nil =>
      cases h
      exact ⟨[], by simp, rfl⟩
  | cons l ls ih =>
      obtain ⟨reading, offset⟩ := l
      cases reading with
      | error cause => cases h
      | ok t =>
          rcases ih h with ⟨found, rfl, hfound⟩
          refine ⟨t :: found, by simp, ?_⟩
          rw [List.map_cons, hfound]
          rfl

/-- The tokens of code are those that are read of it, where all of them are
well-formed. -/
theorem tokens_eq_iff {code : String} {ts : List Token} :
    tokens code = (ts, none) ↔ (lexemes code).1.map Lexeme.reading = ts.map .ok := by
  constructor
  · intro h
    rcases splitMalformedOnto_eq_none h with ⟨found, rfl, hfound⟩
    exact hfound
  · intro h
    exact splitMalformedOnto_of_ok h []

/-- The tokens of code are those that are read of its characters. -/
theorem tokens_eq_iff_readings {code : String} {ts : List Token} :
    tokens code = (ts, none) ↔ readings code.toList = ts.map .ok := by
  rw [tokens_eq_iff]
  exact Iff.rfl

/-! ## Names -/

theorem readString_eq_ok {quote : Char} {seen : List Char} {count : Nat} {place : StringPlace}
    {cs : List Char} {t : Token} (h : (readString quote seen count place cs).1 = .ok t) :
    ∃ value, t = .string value := by
  induction cs generalizing seen count place with
  | nil => cases place <;> cases h
  | cons c rest ih =>
      unfold readString at h
      dsimp only at h
      repeat' split at h
      all_goals
        first
        | exact ih h
        | (cases h
           exact ⟨_, rfl⟩)
        | cases h

theorem readNumber_eq_ok {cs : List Char} {t : Token} (h : (readNumber cs).1 = .ok t) :
    ∃ value, t = .number value := by
  unfold readNumber at h
  split at h
  · unfold readHexNumber at h
    dsimp only at h
    split at h
    · cases h
      exact ⟨_, rfl⟩
    · cases h
  · dsimp only at h
    split at h
    · cases h
      exact ⟨_, rfl⟩
    · cases h

theorem eq_of_ofWord_eq {word name : String} (h : Token.ofWord word = .identifier name) :
    word = name := by
  unfold Token.ofWord at h
  split at h
  all_goals
    first
    | exact Token.identifier.inj h
    | cases h

theorem readSign_ne_identifier (c : Char) (rest : List Char) (name : String) :
    (readSign c rest).1 ≠ .ok (.identifier name) := by
  intro h
  unfold readSign at h
  split at h <;> cases h

/-- An identifier is read where a word starts, and it is that word. -/
theorem readToken_eq_identifier {c : Char} {rest : List Char} {name : String}
    (h : (readToken c rest).1 = .ok (.identifier name)) :
    startsWord c = true ∧ String.ofList ((c :: rest).takeWhile continuesWord) = name ∧
      Token.ofWord name = .identifier name := by
  unfold readToken at h
  split at h
  · rename_i hstart
    have hword := Except.ok.inj h
    have hname := eq_of_ofWord_eq hword
    rw [hname] at hword
    exact ⟨hstart, hname, hword⟩
  · split at h
    · rcases readNumber_eq_ok h with ⟨_, ⟨⟩⟩
    · split at h
      · rcases readString_eq_ok h with ⟨_, ⟨⟩⟩
      · exact absurd h (readSign_ne_identifier c rest name)

/-- Whether a text is read as a single identifier, the text itself. -/
def IsName (name : String) : Prop :=
  tokens name = ([.identifier name], none)

/-- A name is a word, without anything before or behind it. -/
theorem IsName.isWord {name : String} (h : IsName name) :
    ∃ c more, name.toList = c :: more ∧ startsWord c = true ∧
      (∀ d ∈ c :: more, continuesWord d = true) ∧ Token.ofWord name = .identifier name := by
  have hreadings : readings name.toList = [.ok (.identifier name)] := tokens_eq_iff_readings.mp h
  cases hnext : Source.next? ⟨0, name.toList⟩ with
  | none =>
      rw [readings, lexemesOnto_of_next?_eq_none hnext] at hreadings
      cases hreadings
  | some found =>
      rcases found with ⟨l, place, rest⟩
      rw [readings_of_next? hnext] at hreadings
      have hreading : l.reading = .ok (.identifier name) := (List.cons.inj hreadings).1
      unfold Source.next? Source.skipGap Source.skip Source.readHere? at hnext
      dsimp only at hnext
      cases hdrop : name.toList.drop (gapSize .blanks 0 name.toList) with
      | nil =>
          rw [hdrop] at hnext
          cases hnext
      | cons c more =>
          rw [hdrop] at hnext
          cases hnext
          rcases readToken_eq_identifier hreading with ⟨hstart, hword, hname⟩
          have htake : (c :: more).takeWhile continuesWord = name.toList := by
            rw [← hword, String.toList_ofList]
          have hshorter : (c :: more).length ≤ name.toList.length := by
            rw [← hdrop, List.length_drop]
            exact Nat.sub_le _ _
          have hwhole : name.toList = c :: more :=
            (htake ▸ List.takeWhile_prefix continuesWord).eq_of_length_le hshorter
          rw [hwhole] at htake
          exact ⟨c, more, hwhole, hstart, List.takeWhile_eq_self_iff.mp htake, hname⟩

/-- A name is read where no more of a word follows. -/
theorem readings_name {name : String} (h : IsName name) {rest : List Char}
    (hrest : ∀ d ∈ rest.head?, continuesWord d = false) :
    readings (name.toList ++ rest) = .ok (.identifier name) :: readings rest := by
  rcases h.isWord with ⟨c, more, hname, hstart, hword, htoken⟩
  have hread := readings_word hstart (List.forall_mem_cons.mp hword).2 hrest
  rw [← hname, String.ofList_toList, htoken] at hread
  exact hread

end Script
end ComponentMarkup
