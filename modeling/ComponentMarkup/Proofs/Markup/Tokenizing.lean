import ComponentMarkup.Proofs.Markup.Scanning

/-!
# Texts and rows of tokens

A row of tokens is settled when its source is not scanned in any other way.  This only
depends on neighbours: a character must not form a control sequence with the source of
the next token.  Every text is the source of exactly one settled row of tokens, so it is
tokenized unless that row is too long.
-/

namespace ComponentMarkup
namespace Markup
namespace Token

/-!
# Settled rows of tokens
-/

/-- The neighbours whose sources are scanned differently when they are put together. -/
def clashes : List (Token × Token) :=
  [(.char '!', .char '['), (.char ']', .char '['), (.char ']', .char '!'), (.char ']', .opening)]

/-- Whether no two neighbours clash. -/
def Settled (tokens : List Token) : Prop :=
  tokens.IsChain fun t next => (t, next) ∉ clashes

instance : DecidablePred Settled := fun tokens =>
  inferInstanceAs (Decidable (tokens.IsChain fun t next => (t, next) ∉ clashes))

/-- Tokens clash where a character forms a control sequence with the next character. -/
theorem mem_clashes_iff {t next : Token} :
    (t, next) ∈ clashes ↔ ∃ c, t = .char c ∧ ∃ d ∈ next.source.head?, Joins c d := by
  constructor
  · intro h
    simp only [clashes, List.mem_cons, Prod.mk.injEq, List.not_mem_nil, or_false] at h
    rcases h with ⟨rfl, rfl⟩ | ⟨rfl, rfl⟩ | ⟨rfl, rfl⟩ | ⟨rfl, rfl⟩
    · exact ⟨'!', rfl, '[', rfl, Or.inl ⟨rfl, rfl⟩⟩
    · exact ⟨']', rfl, '[', rfl, Or.inr ⟨rfl, Or.inl rfl⟩⟩
    · exact ⟨']', rfl, '!', rfl, Or.inr ⟨rfl, Or.inr rfl⟩⟩
    · exact ⟨']', rfl, '!', rfl, Or.inr ⟨rfl, Or.inr rfl⟩⟩
  · rintro ⟨c, rfl, d, hd, hjoins⟩
    cases next with
    | char e =>
        cases hd
        rcases hjoins with ⟨rfl, rfl⟩ | ⟨rfl, rfl | rfl⟩ <;> decide
    | opening =>
        cases hd
        rw [joins_exclamation hjoins]
        decide
    | separator =>
        cases hd
        exact absurd hjoins (not_joins_closingBracket c)
    | closing =>
        cases hd
        exact absurd hjoins (not_joins_closingBracket c)

theorem head?_flatMap_source {next : Token} {tokens : List Token}
    (h : next ∈ tokens.head?) : (tokens.flatMap source).head? = next.source.head? := by
  rcases List.head?_eq_some_iff.mp h with ⟨rest, rfl⟩
  cases next <;> rfl

theorem settled_cons_iff {t : Token} {tokens : List Token} :
    Settled (t :: tokens) ↔
      (∀ c, t = .char c → ∀ d ∈ (tokens.flatMap source).head?, ¬ Joins c d) ∧
        Settled tokens := by
  rw [Settled, List.isChain_cons, ← Settled]
  refine and_congr_left fun _ => ?_
  constructor
  · intro h c hc d hd hjoins
    cases tokens with
    | nil => cases hd
    | cons next rest =>
        have hhead : ((next :: rest).flatMap source).head? = next.source.head? :=
          head?_flatMap_source rfl
        rw [hhead] at hd
        exact h next rfl (mem_clashes_iff.mpr ⟨c, hc, d, hd, hjoins⟩)
  · intro h next hnext hmem
    rcases mem_clashes_iff.mp hmem with ⟨c, hc, d, hd, hjoins⟩
    rw [← head?_flatMap_source hnext] at hd
    exact h c hc d hd hjoins

/-!
# Scanning as an inverse
-/

theorem flatMap_source_scan (cs : List Char) : (scan cs).flatMap source = cs :=
  flatMap_source_scanOnto [] cs

theorem settled_scan (cs : List Char) : Settled (scan cs) := by
  induction cs using scanInduction with
  | nil => exact List.IsChain.nil
  | opening rest ih =>
      rw [scan_opening, settled_cons_iff]
      exact ⟨fun c hc => (by cases hc), ih⟩
  | separator rest ih =>
      rw [scan_separator, settled_cons_iff]
      exact ⟨fun c hc => (by cases hc), ih⟩
  | closing rest ih =>
      rw [scan_closing, settled_cons_iff]
      exact ⟨fun c hc => (by cases hc), ih⟩
  | char c rest hsingle ih =>
      rw [scan_char hsingle, settled_cons_iff, flatMap_source_scan]
      refine ⟨?_, ih⟩
      intro e he
      cases he
      exact hsingle

theorem scan_flatMap_source {tokens : List Token} (h : Settled tokens) :
    scan (tokens.flatMap source) = tokens := by
  induction tokens with
  | nil => rfl
  | cons t rest ih =>
      rcases settled_cons_iff.mp h with ⟨hnext, hrest⟩
      have hread := ih hrest
      cases t with
      | char c =>
          change scan (c :: rest.flatMap source) = .char c :: rest
          rw [scan_char (hnext c rfl), hread]
      | opening =>
          change scan ('!' :: '[' :: rest.flatMap source) = .opening :: rest
          rw [scan_opening, hread]
      | separator =>
          change scan (']' :: '[' :: rest.flatMap source) = .separator :: rest
          rw [scan_separator, hread]
      | closing =>
          change scan (']' :: '!' :: rest.flatMap source) = .closing :: rest
          rw [scan_closing, hread]

/-- The tokens of a text are the only settled row with this source. -/
theorem eq_scan_iff {tokens : List Token} {cs : List Char} :
    tokens = scan cs ↔ tokens.flatMap source = cs ∧ Settled tokens := by
  constructor
  · rintro rfl
    exact ⟨flatMap_source_scan cs, settled_scan cs⟩
  · rintro ⟨rfl, hsettled⟩
    exact (scan_flatMap_source hsettled).symm

end Token

/-!
# Tokenizing a text
-/

theorem tokenize_of_le {limit : Nat} {text : String}
    (h : (Token.scan text.toList).length ≤ limit) :
    tokenize limit text = .ok (Token.scan text.toList) :=
  if_neg (Nat.not_lt.mpr h)

theorem tokenize_of_lt {limit : Nat} {text : String}
    (h : limit < (Token.scan text.toList).length) :
    tokenize limit text = .error (.tooManyTokens limit) :=
  if_pos h

theorem tokenize_eq_ok {limit : Nat} {text : String} {tokens : List Token} :
    tokenize limit text = .ok tokens ↔
      tokens = Token.scan text.toList ∧ tokens.length ≤ limit := by
  constructor
  · intro h
    rcases Nat.lt_or_ge limit (Token.scan text.toList).length with hlt | hle
    · rw [tokenize_of_lt hlt] at h
      cases h
    · rw [tokenize_of_le hle] at h
      cases h
      exact ⟨rfl, hle⟩
  · rintro ⟨rfl, hle⟩
    exact tokenize_of_le hle

/-- A text is tokenized to the settled row of tokens with this source, which exists and is
unique, unless there are too many of them. -/
theorem tokenize_settled (limit : Nat) (text : String) :
    (∀ tokens, tokenize limit text = .ok tokens ↔
      tokens.flatMap Token.source = text.toList ∧ Token.Settled tokens ∧
        tokens.length ≤ limit) ∧
      (∃! tokens, tokens.flatMap Token.source = text.toList ∧ Token.Settled tokens) ∧
      ∀ tokens, tokens.flatMap Token.source = text.toList → Token.Settled tokens →
        limit < tokens.length → tokenize limit text = .error (.tooManyTokens limit) := by
  constructor
  · intro tokens
    rw [tokenize_eq_ok, Token.eq_scan_iff, and_assoc]
  · constructor
    · refine ⟨Token.scan text.toList, Token.eq_scan_iff.mp rfl, ?_⟩
      intro tokens h
      exact Token.eq_scan_iff.mpr h
    · intro tokens hsource hsettled hlimit
      rw [Token.eq_scan_iff.mpr ⟨hsource, hsettled⟩] at hlimit
      exact tokenize_of_lt hlimit

/-- Of the three sequences `![` only the second one opens an invocation. -/
theorem tokenize_settled_brackets :
    tokenize 8 "]![!![a]]![" =
        .ok [.closing, .char '[', .char '!', .opening, .char 'a', .char ']', .closing,
          .char '['] ∧
      tokenize 7 "]![!![a]]![" = .error (.tooManyTokens 7) := by
  have hsource : [Token.closing, .char '[', .char '!', .opening, .char 'a', .char ']',
      .closing, .char '['].flatMap Token.source = "]![!![a]]![".toList := by
    decide
  have hsettled : Token.Settled [.closing, .char '[', .char '!', .opening, .char 'a',
      .char ']', .closing, .char '['] := by
    decide
  constructor
  · exact ((tokenize_settled 8 _).1 _).mpr ⟨hsource, hsettled, by decide⟩
  · exact (tokenize_settled 7 _).2.2 _ hsource hsettled (by decide)

end Markup
end ComponentMarkup
