import ComponentMarkup.Proofs.Cursor.Indexed
import ComponentMarkup.Proofs.Markup.Names

/-!
# Reading by descent

Statements are read once more, from a cursor by index and by functions that call one another: the
statements of a list, an invocation, and the arguments behind its name.  A list inside an
invocation ends where a separator or a closing sequence has been passed, and the cursor goes back
before it.  Each function is told how many calls may still follow one another, and two for each
token are enough: the descent ends, has no fault, and reads what the tokens are read as from left
to right.
-/

namespace ComponentMarkup
namespace Markup

open Binary

/-! ## Letters and marks -/

/-- Whether some tokens do not go on with a text or a name. -/
def Unlettered (tokens : List Token) : Prop :=
  ∀ letter rest, tokens ≠ .char letter :: rest

theorem exists_letters (tokens : List Token) :
    ∃ (letters : List Char) (rest : List Token),
      tokens = letters.map .char ++ rest ∧ Unlettered rest := by
  induction tokens with
  | nil => exact ⟨[], [], rfl, fun letter rest h => (by cases h)⟩
  | cons t others ih =>
      rcases t.letter_or_mark with ⟨letter, rfl⟩ | hmark
      · obtain ⟨letters, rest, rfl, hrest⟩ := ih
        exact ⟨letter :: letters, rest, rfl, hrest⟩
      · refine ⟨[], t :: others, rfl, ?_⟩
        intro letter rest h
        exact hmark letter (List.cons.inj h).1

namespace Descent

inductive Stop where
  | fault (cause : Indexed.Fault)
  | error (cause : ParseError)
  /-- More calls would follow one another than are allowed. -/
  | unfinished
deriving DecidableEq

structure State where
  tokens : Indexed Token
  /-- How many invocations are open. -/
  depth : Nat
deriving DecidableEq

abbrev Reader :=
  StateT State (Except Stop)

/-! ## Moves -/

def checked {α : Type} (result : Except Indexed.Fault α) : Reader α :=
  match result with
  | .ok a => pure a
  | .error cause => throw (.fault cause)

def advance : Reader (Option Token) := do
  let s ← get
  let (t, tokens) ← checked s.tokens.advance
  set { s with tokens }
  return t

def unread : Reader Unit := do
  let s ← get
  let tokens ← checked s.tokens.unread
  set { s with tokens }

def takeToken (component : String) : Reader Token := do
  let s ← get
  match ← checked s.tokens.takeOne with
  | (.ok t, tokens) =>
      set { s with tokens }
      return t
  | (.error shortage, _) => throw (.error (.unexpectedEnd component shortage))

def enter (limit : Nat) : Reader Unit := do
  let s ← get
  let depth ← checked (Indexed.sum s.depth 1)
  if limit < depth then throw (.error (.nestingTooDeep limit))
  else set { s with depth }

def leave : Reader Unit := do
  let s ← get
  let depth ← checked (Indexed.difference s.depth 1)
  set { s with depth }

/-- Extend a text by the characters in front of the next control sequence. -/
def textRun : Nat → String → Reader String
  | 0, _ => throw .unfinished
  | calls + 1, out => do
      match (← get).tokens.peekOne with
      | some (.char c) =>
          let _ ← advance
          textRun calls (out.push c)
      | _ => return out

/-! ## Statements -/

variable (registry : Registry) (limit : Nat)

mutual

def statements : Nat → Bool → List Statement → Reader (List Statement)
  | 0, _, _ => throw .unfinished
  | calls + 1, inArgument, seen => do
      match ← advance with
      | none => return seen.reverse
      | some .opening =>
          let s ← invocation calls
          statements calls inArgument (s :: seen)
      | some t =>
          if inArgument && (t == .separator || t == .closing) then
            unread
            return seen.reverse
          else
            let content ← textRun calls t.text
            statements calls inArgument (.text content :: seen)

/-- The invocation whose opening sequence has been passed. -/
def invocation : Nat → Reader Statement
  | 0 => throw .unfinished
  | calls + 1 => do
      let written ← textRun calls ""
      let name := Text.lowercase written
      if !isComponentName name then throw (.error (.invalidName name))
      else if !registry.contains name then throw (.error (.unknownComponent name))
      else
        enter limit
        let next ← takeToken name
        let found ← arguments calls name [] next
        leave
        return .invocation name found

/-- The arguments behind a component's name or behind other arguments, where the
next token has been taken. -/
def arguments : Nat → String → List (List Statement) → Token → Reader (List (List Statement))
  | 0, _, _, _ => throw .unfinished
  | calls + 1, name, seen, next => do
      if next = .closing then return seen.reverse
      else if next = .separator then
        let argument ← statements calls true []
        let next ← takeToken name
        arguments calls name (argument :: seen) next
      else throw (.error (.unexpectedToken name next))

end

/-- The statements of a row of tokens.  No more than two calls follow one another for each token
that is passed. -/
def read (tokens : List Token) : Except Stop (List Statement) :=
  (statements registry limit (2 * tokens.length + 1) false []).run' ⟨.ofList tokens, 0⟩

/-! ## What a reader meets -/

variable {α β : Type} {registry : Registry} {limit : Nat}

/-- A reader ends, without a fault, with the error that is expected or with what is said of its
answer and the state it leaves. -/
def Meets (m : Reader α) (s : State) (expected : Except ParseError (List Statement))
    (post : α → State → Prop) : Prop :=
  match m.run s with
  | .ok (a, after) => post a after
  | .error (.error cause) => expected = .error cause
  | .error (.fault _) => False
  | .error .unfinished => False

variable {m : Reader α} {f : α → Reader β} {s after : State}
  {expected : Except ParseError (List Statement)} {post : α → State → Prop}
  {post' : β → State → Prop}

theorem run_bind_of_ok {a : α} (h : m.run s = .ok (a, after)) :
    (m >>= f).run s = (f a).run after := by
  rw [StateT.run_bind, h]
  rfl

theorem run_bind_of_error {stop : Stop} (h : m.run s = .error stop) :
    (m >>= f).run s = .error stop := by
  rw [StateT.run_bind, h]
  rfl

theorem meets_of_ok {a : α} (h : m.run s = .ok (a, after)) (ha : post a after) :
    Meets m s expected post := by
  rw [Meets, h]
  exact ha

theorem meets_of_error {cause : ParseError} (h : m.run s = .error (.error cause))
    (hcause : expected = .error cause) : Meets m s expected post := by
  rw [Meets, h]
  exact hcause

theorem meets_bind_of_ok {a : α} (h : m.run s = .ok (a, after))
    (hf : Meets (f a) after expected post') : Meets (m >>= f) s expected post' := by
  rw [Meets, run_bind_of_ok h]
  exact hf

theorem Meets.bind (h : Meets m s expected post)
    (hf : ∀ a after, post a after → Meets (f a) after expected post') :
    Meets (m >>= f) s expected post' := by
  unfold Meets at h
  split at h
  · exact meets_bind_of_ok ‹_› (hf _ _ h)
  · exact meets_of_error (run_bind_of_error ‹_›) h
  · exact h.elim
  · exact h.elim

theorem Meets.imp {stated : α → State → Prop} (h : Meets m s expected stated)
    (himp : ∀ a after, stated a after → post a after) : Meets m s expected post := by
  unfold Meets at h ⊢
  split at h
  · exact himp _ _ h
  · exact h
  · exact h
  · exact h

theorem run_get (s : State) : (get : Reader State).run s = .ok (s, s) := rfl

theorem run_checked {r : Except Indexed.Fault α} {a : α} (h : r = .ok a) (s : State) :
    (checked r).run s = .ok (a, s) := by
  rw [h]
  rfl

/-! ## Moves on a split -/

/-- The state at a place of the tokens where so many invocations are open. -/
def place (c : Cursor Token) (depth : Nat) : State :=
  ⟨c.indexed, depth⟩

@[simp] theorem place_tokens (c : Cursor Token) (depth : Nat) :
    (place c depth).tokens = c.indexed := rfl

@[simp] theorem place_depth (c : Cursor Token) (depth : Nat) : (place c depth).depth = depth := rfl

variable {c : Cursor Token} {depth : Nat}

theorem advance_place (hword : c.toList.length < wordCount) :
    advance.run (place c depth) = .ok (c.advance.1, place c.advance.2 depth) := by
  rw [advance, run_bind_of_ok (run_get _), place_tokens,
    run_bind_of_ok (run_checked (Cursor.advance_indexed hword) _)]
  rfl

theorem unread_place (t : Token) (passed ahead : List Token) :
    unread.run (place ⟨t :: passed, ahead⟩ depth) =
      .ok ((), place ⟨passed, t :: ahead⟩ depth) := by
  rw [unread, run_bind_of_ok (run_get _), place_tokens,
    run_bind_of_ok (run_checked (Cursor.unread_indexed_cons t passed ahead) _)]
  rfl

/-- A step back from the start stops the descent. -/
theorem unread_place_start (ahead : List Token) :
    unread.run (place ⟨[], ahead⟩ depth) = .error (.fault .unreadAtStart) := rfl

theorem takeToken_place_nil (component : String) (passed : List Token) :
    (takeToken component).run (place ⟨passed, []⟩ depth) =
      .error (.error (.unexpectedEnd component ⟨1, 0⟩)) := by
  rw [takeToken, run_bind_of_ok (run_get _), place_tokens,
    run_bind_of_ok (run_checked (Cursor.takeOne_indexed_nil passed) _)]
  rfl

theorem takeToken_place_cons (component : String) {t : Token} {passed rest : List Token}
    (hword : (Cursor.toList ⟨passed, t :: rest⟩).length < wordCount) :
    (takeToken component).run (place ⟨passed, t :: rest⟩ depth) =
      .ok (t, place ⟨t :: passed, rest⟩ depth) := by
  rw [takeToken, run_bind_of_ok (run_get _), place_tokens,
    run_bind_of_ok (run_checked (Cursor.takeOne_indexed_cons hword) _)]
  rfl

theorem enter_place (hdepth : depth + 1 < wordCount) :
    (enter limit).run (place c depth) =
      if limit ≤ depth then .error (.error (.nestingTooDeep limit))
      else .ok ((), place c (depth + 1)) := by
  rw [enter, run_bind_of_ok (run_get _), place_depth,
    run_bind_of_ok (run_checked (Indexed.sum_eq_ok hdepth) _)]
  by_cases h : limit ≤ depth
  · rw [if_pos (Nat.lt_succ_of_le h), if_pos h]
    rfl
  · rw [if_neg (fun hlt => h (Nat.le_of_lt_succ hlt)), if_neg h]
    rfl

theorem leave_place (c : Cursor Token) (depth : Nat) :
    leave.run (place c (depth + 1)) = .ok ((), place c depth) := by
  rw [leave, run_bind_of_ok (run_get _), place_depth,
    run_bind_of_ok (run_checked (Indexed.difference_eq_ok (Nat.le_add_left 1 depth)) _)]
  rfl

/-- One place lies at or behind another of the same tokens. -/
structure Reaches (c after : Cursor Token) : Prop where
  toList_eq : after.toList = c.toList
  index_le : c.index ≤ after.index

namespace Reaches

theorem refl (c : Cursor Token) : Reaches c c :=
  ⟨rfl, Nat.le_refl c.index⟩

theorem append (passed tokens rest : List Token) :
    Reaches ⟨passed, tokens ++ rest⟩ ⟨tokens.reverse ++ passed, rest⟩ :=
  ⟨by simp [Cursor.toList], by simp [Cursor.index]⟩

theorem cons (passed rest : List Token) (t : Token) :
    Reaches ⟨passed, t :: rest⟩ ⟨t :: passed, rest⟩ :=
  append passed [t] rest

variable {c middle after : Cursor Token}

theorem trans (h : Reaches c middle) (h' : Reaches middle after) : Reaches c after :=
  ⟨h'.toList_eq.trans h.toList_eq, Nat.le_trans h.index_le h'.index_le⟩

theorem remaining_le (h : Reaches c after) : after.remaining ≤ c.remaining := by
  have hlength := c.length_toList
  have hafter := after.length_toList
  have hindex := h.index_le
  rw [h.toList_eq] at hafter
  omega

theorem lt_wordCount (h : Reaches c after) (hword : c.toList.length < wordCount) :
    after.toList.length < wordCount := by
  rwa [h.toList_eq]

end Reaches

/-! ## Texts -/

theorem textRun_letter {passed rest : List Token} {letter : Char}
    (hword : (Cursor.toList ⟨passed, .char letter :: rest⟩).length < wordCount) (calls : Nat)
    (out : String) :
    (textRun (calls + 1) out).run (place ⟨passed, .char letter :: rest⟩ depth) =
      (textRun calls (out.push letter)).run (place ⟨.char letter :: passed, rest⟩ depth) := by
  rw [textRun, run_bind_of_ok (run_get _), place_tokens, Cursor.peekOne_indexed]
  exact run_bind_of_ok (advance_place hword)

theorem textRun_unlettered (passed : List Token) {rest : List Token} (h : Unlettered rest)
    (calls : Nat) (out : String) :
    (textRun (calls + 1) out).run (place ⟨passed, rest⟩ depth) =
      .ok (out, place ⟨passed, rest⟩ depth) := by
  rw [textRun, run_bind_of_ok (run_get _), place_tokens, Cursor.peekOne_indexed]
  cases rest with
  | nil => rfl
  | cons t others =>
      cases t with
      | char letter => exact absurd rfl (h letter others)
      | opening => rfl
      | separator => rfl
      | closing => rfl

theorem textRun_place {letters : List Char} {passed rest : List Token} (hrest : Unlettered rest)
    (hword : (Cursor.toList ⟨passed, letters.map .char ++ rest⟩).length < wordCount)
    {calls : Nat} (hcalls : letters.length < calls) (out : String) :
    (textRun calls out).run (place ⟨passed, letters.map .char ++ rest⟩ depth) =
      .ok (out ++ String.ofList letters,
        place ⟨(letters.map .char).reverse ++ passed, rest⟩ depth) := by
  induction letters generalizing passed out calls with
  | nil =>
      obtain ⟨calls, rfl⟩ := Nat.exists_eq_add_one.mpr hcalls
      rw [String.ofList_nil, String.append_empty]
      exact textRun_unlettered passed hrest calls out
  | cons letter letters ih =>
      obtain ⟨calls, rfl⟩ := Nat.exists_eq_add_one_of_ne_zero (Nat.ne_zero_of_lt hcalls)
      have hreaches := Reaches.cons passed (letters.map .char ++ rest) (.char letter)
      have hpush : out.push letter ++ String.ofList letters =
          out ++ String.ofList (letter :: letters) := by
        apply String.toList_inj.mp
        simp
      refine (textRun_letter hword calls out).trans ?_
      refine (ih (hreaches.lt_wordCount hword) (Nat.lt_of_succ_lt_succ hcalls)
        (out.push letter)).trans ?_
      rw [hpush]
      simp

end Descent

end Markup
end ComponentMarkup
