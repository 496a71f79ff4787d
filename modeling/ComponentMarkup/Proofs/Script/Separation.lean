import Mathlib
import ComponentMarkup.Proofs.Script.Programs
import ComponentMarkup.Proofs.Script.Readings
import ComponentMarkup.Proofs.Script.Room

/-!
# Statements are read apart

A semicolon is read through by no reader, and it stands where the end of the code could
stand.  So what is read of the tokens before a semicolon does not depend on those behind it,
and each side has all of the room.
-/

namespace ComponentMarkup
namespace Script

section Lists

variable {P : Token → Prop} {t : Token} {ts us more : List Token}

theorem forall_head?_append_semicolon (h : P .semicolon) (ts us : List Token) :
    (∀ t ∈ (ts ++ .semicolon :: us).head?, P t) ↔ ∀ t ∈ ts.head?, P t := by
  cases ts with
  | nil => simp [h]
  | cons t ts => exact Iff.rfl

theorem head?_append_semicolon_ne (h : t ≠ .semicolon) (ts us : List Token) :
    (ts ++ .semicolon :: us).head? ≠ some t ↔ ts.head? ≠ some t := by
  cases ts with
  | nil => simp [h.symm]
  | cons found ts => exact Iff.rfl

/-- Another token in front of a semicolon is one of those before it. -/
theorem eq_cons_of_append_semicolon (h : ts ++ .semicolon :: us = t :: more)
    (ht : t ≠ .semicolon) : ∃ behind, ts = t :: behind ∧ behind ++ .semicolon :: us = more := by
  cases ts with
  | nil => exact absurd (List.cons.inj h).1.symm ht
  | cons found behind =>
      obtain ⟨rfl, hmore⟩ := List.cons.inj h
      exact ⟨behind, rfl, hmore⟩

end Lists

/-!
# Expressions
-/

/-- What is read in front of the end of the code is read in front of a semicolon. -/
theorem reads_append_semicolon {r : Reader} {room : Nat} {ts rest : List Token}
    {es : List Expr} (h : Reads r room ts es rest) (us : List Token) :
    Reads r room (ts ++ .semicolon :: us) es (rest ++ .semicolon :: us) := by
  induction h with
  | bare _ next ih => exact .bare ih ((head?_append_semicolon_ne (by decide) _ us).mpr next)
  | conditional _ _ _ ihTest ihConsequent ihAlternate =>
      exact .conditional ihTest ihConsequent ihAlternate
  | chain _ _ ihLeft ihRest => exact .chain ihLeft ihRest
  | @chainEnd p _ _ ts next =>
      exact .chainEnd ((forall_head?_append_semicolon (by cases p <;> rfl) ts us).mpr next)
  | chainStep operator _ _ ihRight ihRest => exact .chainStep operator ihRight ihRest
  | tighter level _ ih => exact .tighter level ih
  | tightest level _ ih => exact .tightest level ih
  | unary operator _ ih => exact .unary operator ih
  | @noUnary _ ts _ _ next _ ih =>
      exact .noUnary ((forall_head?_append_semicolon (by rfl) ts us).mpr next) ih
  | applied _ _ ihFirst ihRest => exact .applied ihFirst ihRest
  | @appliedEnd _ _ ts next =>
      exact .appliedEnd ((forall_head?_append_semicolon (by rfl) ts us).mpr next)
  | member _ ih => exact .member ih
  | index _ _ ihIndex ihRest => exact .index ihIndex ihRest
  | call _ _ ihArguments ihRest => exact .call ihArguments ihRest
  | argumentsEnd => exact .argumentsEnd
  | argument _ _ ih ihRest => exact .argument ih ihRest
  | lastArgument _ ih => exact .lastArgument ih
  | parentheses _ ih => exact .parentheses ih
  | literal token => exact .literal token

/-- What is read in front of a semicolon is read of the tokens before it. -/
theorem reads_of_append_semicolon {r : Reader} {room : Nat} {ts us behind : List Token}
    {es : List Expr} (h : Reads r room (ts ++ .semicolon :: us) es behind) :
    ∃ rest, rest ++ .semicolon :: us = behind ∧ Reads r room ts es rest := by
  generalize hall : ts ++ .semicolon :: us = all at h
  induction h generalizing ts with
  | bare _ next ih =>
      obtain ⟨rest, rfl, hread⟩ := ih hall
      exact ⟨rest, rfl, .bare hread ((head?_append_semicolon_ne (by decide) rest us).mp next)⟩
  | conditional _ _ _ ihTest ihConsequent ihAlternate =>
      obtain ⟨_, hquestion, htest⟩ := ihTest hall
      obtain ⟨_, rfl, hbehind⟩ := eq_cons_of_append_semicolon hquestion (by decide)
      obtain ⟨_, hcolon, hconsequent⟩ := ihConsequent hbehind
      obtain ⟨_, rfl, hbehind⟩ := eq_cons_of_append_semicolon hcolon (by decide)
      obtain ⟨rest, rfl, halternate⟩ := ihAlternate hbehind
      exact ⟨rest, rfl, .conditional htest hconsequent halternate⟩
  | chain _ _ ihLeft ihRest =>
      obtain ⟨_, hbehind, hleft⟩ := ihLeft hall
      obtain ⟨rest, rfl, hrest⟩ := ihRest hbehind
      exact ⟨rest, rfl, .chain hleft hrest⟩
  | @chainEnd p _ _ _ next =>
      subst hall
      have hsemicolon : p.operator? .semicolon = none := by
        cases p <;> rfl
      exact ⟨ts, rfl, .chainEnd ((forall_head?_append_semicolon hsemicolon ts us).mp next)⟩
  | @chainStep p _ _ _ _ _ _ _ _ _ operator _ _ ihRight ihRest =>
      have hsemicolon : p.operator? .semicolon = none := by
        cases p <;> rfl
      obtain ⟨_, rfl, hts⟩ := eq_cons_of_append_semicolon hall (by
        rintro rfl
        rw [hsemicolon] at operator
        cases operator)
      obtain ⟨_, hbehind, hright⟩ := ihRight hts
      obtain ⟨rest, rfl, hrest⟩ := ihRest hbehind
      exact ⟨rest, rfl, .chainStep operator hright hrest⟩
  | tighter level _ ih =>
      obtain ⟨rest, rfl, hread⟩ := ih hall
      exact ⟨rest, rfl, .tighter level hread⟩
  | tightest level _ ih =>
      obtain ⟨rest, rfl, hread⟩ := ih hall
      exact ⟨rest, rfl, .tightest level hread⟩
  | unary operator _ ih =>
      obtain ⟨_, rfl, hts⟩ := eq_cons_of_append_semicolon hall (by
        rintro rfl
        cases operator)
      obtain ⟨rest, rfl, hread⟩ := ih hts
      exact ⟨rest, rfl, .unary operator hread⟩
  | noUnary next _ ih =>
      subst hall
      obtain ⟨rest, rfl, hread⟩ := ih rfl
      exact ⟨rest, rfl,
        .noUnary ((forall_head?_append_semicolon (by rfl) ts us).mp next) hread⟩
  | applied _ _ ihFirst ihRest =>
      obtain ⟨_, hbehind, hfirst⟩ := ihFirst hall
      obtain ⟨rest, rfl, hrest⟩ := ihRest hbehind
      exact ⟨rest, rfl, .applied hfirst hrest⟩
  | appliedEnd next =>
      subst hall
      exact ⟨ts, rfl,
        .appliedEnd ((forall_head?_append_semicolon (by rfl) ts us).mp next)⟩
  | member _ ih =>
      obtain ⟨_, rfl, hdot⟩ := eq_cons_of_append_semicolon hall (by decide)
      obtain ⟨_, rfl, hts⟩ := eq_cons_of_append_semicolon hdot (by simp)
      obtain ⟨rest, rfl, hread⟩ := ih hts
      exact ⟨rest, rfl, .member hread⟩
  | index _ _ ihIndex ihRest =>
      obtain ⟨_, rfl, hts⟩ := eq_cons_of_append_semicolon hall (by decide)
      obtain ⟨_, hbracket, hindex⟩ := ihIndex hts
      obtain ⟨_, rfl, hbehind⟩ := eq_cons_of_append_semicolon hbracket (by decide)
      obtain ⟨rest, rfl, hrest⟩ := ihRest hbehind
      exact ⟨rest, rfl, .index hindex hrest⟩
  | call _ _ ihArguments ihRest =>
      obtain ⟨_, rfl, hts⟩ := eq_cons_of_append_semicolon hall (by decide)
      obtain ⟨_, hbehind, harguments⟩ := ihArguments hts
      obtain ⟨rest, rfl, hrest⟩ := ihRest hbehind
      exact ⟨rest, rfl, .call harguments hrest⟩
  | argumentsEnd =>
      obtain ⟨rest, rfl, hts⟩ := eq_cons_of_append_semicolon hall (by decide)
      exact ⟨rest, hts, .argumentsEnd⟩
  | argument _ _ ih ihRest =>
      obtain ⟨_, hcomma, hread⟩ := ih hall
      obtain ⟨_, rfl, hbehind⟩ := eq_cons_of_append_semicolon hcomma (by decide)
      obtain ⟨rest, rfl, hrest⟩ := ihRest hbehind
      exact ⟨rest, rfl, .argument hread hrest⟩
  | lastArgument _ ih =>
      obtain ⟨_, hparen, hread⟩ := ih hall
      obtain ⟨rest, rfl, hbehind⟩ := eq_cons_of_append_semicolon hparen (by decide)
      exact ⟨rest, hbehind, .lastArgument hread⟩
  | parentheses _ ih =>
      obtain ⟨_, rfl, hts⟩ := eq_cons_of_append_semicolon hall (by decide)
      obtain ⟨_, hparen, hread⟩ := ih hts
      obtain ⟨rest, rfl, hbehind⟩ := eq_cons_of_append_semicolon hparen (by decide)
      exact ⟨rest, hbehind, .parentheses hread⟩
  | literal token =>
      obtain ⟨rest, rfl, hts⟩ := eq_cons_of_append_semicolon hall (by
        rintro rfl
        cases token)
      exact ⟨rest, hts, .literal token⟩

/-!
# Statements
-/

theorem readsStatement_append_semicolon {room : Nat} {ts rest : List Token}
    {found : Statement} (h : ReadsStatement room ts found rest) (us : List Token) :
    ReadsStatement room (ts ++ .semicolon :: us) found (rest ++ .semicolon :: us) := by
  cases h with
  | declaration word next =>
      exact .declaration word ((head?_append_semicolon_ne (by decide) rest us).mpr next)
  | initialized word read => exact .initialized word (reads_append_semicolon read us)
  | expression next read =>
      exact .expression ((forall_head?_append_semicolon (by rfl) ts us).mpr next)
        (reads_append_semicolon read us)

theorem readsStatement_of_append_semicolon {room : Nat} {ts us behind : List Token}
    {found : Statement} (h : ReadsStatement room (ts ++ .semicolon :: us) found behind) :
    ∃ rest, rest ++ .semicolon :: us = behind ∧ ReadsStatement room ts found rest := by
  have hword : ∀ {t}, Setting.startsDeclaration t = true → t ≠ .semicolon := by
    rintro _ word rfl
    cases word
  generalize hall : ts ++ .semicolon :: us = all at h
  cases h with
  | declaration word next =>
      obtain ⟨_, rfl, hname⟩ := eq_cons_of_append_semicolon hall (hword word)
      obtain ⟨rest, rfl, rfl⟩ := eq_cons_of_append_semicolon hname (by simp)
      exact ⟨rest, rfl,
        .declaration word ((head?_append_semicolon_ne (by decide) rest us).mp next)⟩
  | initialized word read =>
      obtain ⟨_, rfl, hname⟩ := eq_cons_of_append_semicolon hall (hword word)
      obtain ⟨_, rfl, hassign⟩ := eq_cons_of_append_semicolon hname (by simp)
      obtain ⟨_, rfl, rfl⟩ := eq_cons_of_append_semicolon hassign (by decide)
      obtain ⟨rest, rfl, hread⟩ := reads_of_append_semicolon read
      exact ⟨rest, rfl, .initialized word hread⟩
  | expression next read =>
      subst hall
      obtain ⟨rest, rfl, hread⟩ := reads_of_append_semicolon read
      exact ⟨rest, rfl, .expression
        ((forall_head?_append_semicolon (by rfl) ts us).mp next) hread⟩

/-!
# Programs
-/

theorem ReadsProgram.append {room : Nat} {ts us : List Token} {first second : Program}
    (hfirst : ReadsProgram room ts first) (hsecond : ReadsProgram room us second) :
    ReadsProgram room (ts ++ .semicolon :: us) (first ++ second) := by
  induction hfirst with
  | nil => exact .semicolon hsecond
  | semicolon _ ih => exact .semicolon ih
  | last read => exact .statement (readsStatement_append_semicolon read us) hsecond
  | statement first _ ih => exact .statement (readsStatement_append_semicolon first us) ih

/-- A program with a semicolon between any of its tokens is read on both sides of it. -/
theorem readsProgram_append_semicolon {room : Nat} {ts us : List Token} {program : Program} :
    ReadsProgram room (ts ++ .semicolon :: us) program ↔
      ∃ first second, ReadsProgram room ts first ∧ ReadsProgram room us second ∧
        program = first ++ second := by
  constructor
  · intro h
    generalize hall : ts ++ .semicolon :: us = all at h
    induction h generalizing ts with
    | nil => exact absurd hall (by simp)
    | semicolon rest ih =>
        cases ts with
        | nil =>
            cases hall
            exact ⟨[], _, .nil, rest, rfl⟩
        | cons t ts =>
            obtain ⟨rfl, hts⟩ := List.cons.inj hall
            obtain ⟨first, second, hfirst, hsecond, rfl⟩ := ih hts
            exact ⟨first, second, .semicolon hfirst, hsecond, rfl⟩
    | last read =>
        subst hall
        obtain ⟨rest, hend, _⟩ := readsStatement_of_append_semicolon read
        exact absurd hend (by simp)
    | @statement _ vs found program read rest ih =>
        subst hall
        obtain ⟨behind, hsplit, hread⟩ := readsStatement_of_append_semicolon read
        cases behind with
        | nil =>
            cases hsplit
            exact ⟨[found], program, .last hread, rest, rfl⟩
        | cons t behind =>
            obtain ⟨rfl, hvs⟩ := List.cons.inj hsplit
            obtain ⟨first, second, hfirst, hsecond, rfl⟩ := ih hvs
            exact ⟨found :: first, second, .statement hread hfirst, hsecond, rfl⟩
  · rintro ⟨first, second, hfirst, hsecond, rfl⟩
    exact hfirst.append hsecond

/-!
# Code
-/

/-- Whether the tokens of some code are those of two others with a semicolon between
them, malformed ones included. -/
def Joins (first second both : String) : Prop :=
  (lexemes both).1.map Lexeme.reading =
    (lexemes first).1.map Lexeme.reading ++ .ok .semicolon ::
      (lexemes second).1.map Lexeme.reading

namespace Joins

variable {first second both : String}

theorem tokens_both (h : Joins first second both) {ts us : List Token}
    (hfirst : tokens first = (ts, none)) (hsecond : tokens second = (us, none)) :
    tokens both = (ts ++ .semicolon :: us, none) := by
  rw [tokens_eq_iff, h, tokens_eq_iff.mp hfirst, tokens_eq_iff.mp hsecond, List.map_append,
    List.map_cons]

/-- Where the tokens of joined code are well-formed, those of both sides are. -/
theorem exists_tokens (h : Joins first second both) {all : List Token}
    (hall : tokens both = (all, none)) :
    ∃ ts us, tokens first = (ts, none) ∧ tokens second = (us, none) ∧
      all = ts ++ .semicolon :: us := by
  have hreadings := tokens_eq_iff.mp hall
  rw [h] at hreadings
  obtain ⟨ts, behind, rfl, hfirst, hbehind⟩ := List.append_eq_map_iff.mp hreadings
  obtain ⟨t, us, rfl, hsemicolon, hsecond⟩ := List.map_eq_cons_iff.mp hbehind
  cases hsemicolon
  exact ⟨ts, us, tokens_eq_iff.mpr hfirst.symm, tokens_eq_iff.mpr hsecond.symm, rfl⟩

/-- Joined code is parsed as the statements of both sides, and neither side takes room
from the other. -/
theorem parse_eq_ok_iff_append (h : Joins first second both) {limit : Nat} {program : Program} :
    parse limit both = .ok program ↔
      ∃ before behind, parse limit first = .ok before ∧ parse limit second = .ok behind ∧
        program = before ++ behind := by
  constructor
  · intro hparse
    obtain ⟨all, hall⟩ := tokens_of_parse hparse
    obtain ⟨ts, us, hfirst, hsecond, rfl⟩ := h.exists_tokens hall
    obtain ⟨before, behind, hbefore, hbehind, hprogram⟩ :=
      readsProgram_append_semicolon.mp ((parse_eq_ok_iff hall).mp hparse)
    exact ⟨before, behind, (parse_eq_ok_iff hfirst).mpr hbefore,
      (parse_eq_ok_iff hsecond).mpr hbehind, hprogram⟩
  · rintro ⟨before, behind, hbefore, hbehind, hprogram⟩
    obtain ⟨ts, hfirst⟩ := tokens_of_parse hbefore
    obtain ⟨us, hsecond⟩ := tokens_of_parse hbehind
    rw [parse_eq_ok_iff hfirst] at hbefore
    rw [parse_eq_ok_iff hsecond] at hbehind
    rw [parse_eq_ok_iff (h.tokens_both hfirst hsecond)]
    exact readsProgram_append_semicolon.mpr ⟨before, behind, hbefore, hbehind, hprogram⟩

end Joins

/-- A limit that an expression is not too deep for does not change the answer, and no
statement takes room from those behind it. -/
theorem parse_apart :
    (∀ limit more code, limit ≤ more →
      parse limit code = .error (.tooDeep limit) ∨ parse limit code = parse more code) ∧
    ∀ first second both, Joins first second both → ∀ limit program,
      parse limit both = .ok program ↔
        ∃ before behind, parse limit first = .ok before ∧ parse limit second = .ok behind ∧
          program = before ++ behind := by
  constructor
  · intro limit more code hle
    rcases settles_parse hle code with hdeep | ⟨hsame, _⟩
    · exact .inl hdeep
    · exact .inr hsame
  · intro first second both hjoins limit program
    exact hjoins.parse_eq_ok_iff_append

/-- Each of the two sides takes all of the room. -/
theorem parse_apart_sides :
    Joins "a-b-c" "-a.b" "a-b-c;-a.b" ∧
      parse 3 "a-b-c;-a.b" =
        .ok [.expression (.binary .subtract
            (.binary .subtract (.identifier "a") (.identifier "b")) (.identifier "c")),
          .expression (.unary .negate (.member (.identifier "a") "b"))] ∧
      (parse 2 "-a.b" = .error (.tooDeep 2) ∨ parse 2 "-a.b" = parse 3 "-a.b") := by
  have hfirst : parse 3 "a-b-c" =
      .ok [.expression (.binary .subtract
        (.binary .subtract (.identifier "a") (.identifier "b")) (.identifier "c"))] := by
    cbv
  have hsecond : parse 3 "-a.b" =
      .ok [.expression (.unary .negate (.member (.identifier "a") "b"))] := by
    cbv
  have hjoins : Joins "a-b-c" "-a.b" "a-b-c;-a.b" := by
    cbv
  exact ⟨hjoins, (parse_apart.2 _ _ _ hjoins 3 _).mpr ⟨_, _, hfirst, hsecond, rfl⟩,
    parse_apart.1 2 3 "-a.b" (by decide)⟩

end Script
end ComponentMarkup
