import ComponentMarkup.Cursor
import ComponentMarkup.Number.Binary

/-!
# Cursors by index

A cursor once more, as a row of items with the index of the next one.  Indices are words: a sum
that does not fit, a difference below zero, a slice that leaves the row and a step back from the
start are faults.  A cursor that splits its sequence in two is encoded by the whole sequence and
the length of its first part, and every request leads from codes to codes without a fault.
-/

namespace ComponentMarkup

open Binary

structure Indexed (α : Type) where
  items : List α
  /-- The index of the next item. -/
  index : Nat
deriving DecidableEq

namespace Indexed

inductive Fault where
  | slice (start stop length : Nat)
  | overflow (summand other : Nat)
  | difference (minuend subtrahend : Nat)
  | unreadAtStart
deriving DecidableEq

/-! ## Checked arithmetic -/

def sum (summand other : Nat) : Except Fault Nat :=
  if summand + other < wordCount then .ok (summand + other) else .error (.overflow summand other)

/-- A sum, or the greatest word where it does not fit. -/
def saturatingSum (summand other : Nat) : Nat :=
  min (summand + other) (wordCount - 1)

def difference (minuend subtrahend : Nat) : Except Fault Nat :=
  if subtrahend ≤ minuend then .ok (minuend - subtrahend)
  else .error (.difference minuend subtrahend)

variable {α : Type}

def slice (items : List α) (start stop : Nat) : Except Fault (List α) :=
  if start ≤ stop ∧ stop ≤ items.length then .ok ((items.drop start).take (stop - start))
  else .error (.slice start stop items.length)

theorem sum_eq_ok {summand other : Nat} (h : summand + other < wordCount) :
    sum summand other = .ok (summand + other) :=
  if_pos h

theorem difference_eq_ok {minuend subtrahend : Nat} (h : subtrahend ≤ minuend) :
    difference minuend subtrahend = .ok (minuend - subtrahend) :=
  if_pos h

theorem slice_eq_ok {items : List α} {start stop : Nat} (h : start ≤ stop)
    (hstop : stop ≤ items.length) :
    slice items start stop = .ok ((items.drop start).take (stop - start)) :=
  if_pos ⟨h, hstop⟩

/-! ## Operations -/

def ofList (items : List α) : Indexed α :=
  ⟨items, 0⟩

def remaining (c : Indexed α) : Except Fault Nat :=
  difference c.items.length c.index

def hasNext (c : Indexed α) : Bool :=
  c.index < c.items.length

/-- Move the index behind the next `n` items. -/
def forward (c : Indexed α) (n : Nat) : Except Fault (Indexed α) := do
  let index ← sum c.index n
  return { c with index }

/-- The next `n` items, or as many as there are. -/
def peek (c : Indexed α) (n : Nat) : Except Fault (List α) :=
  slice c.items c.index (min (saturatingSum c.index n) c.items.length)

def peekOne (c : Indexed α) : Option α :=
  c.items[c.index]?

/-- Take exactly the next `n` items. -/
def take (c : Indexed α) (n : Nat) : Except Fault (Except Shortage (List α) × Indexed α) := do
  let remaining ← c.remaining
  if remaining < n then return (.error ⟨n, remaining⟩, c)
  else do
    let stop ← sum c.index n
    let taken ← slice c.items c.index stop
    let after ← c.forward n
    return (.ok taken, after)

def takeOne (c : Indexed α) : Except Fault (Except Shortage α × Indexed α) :=
  match c.items[c.index]? with
  | none => return (.error ⟨1, 0⟩, c)
  | some item => do
      let after ← c.forward 1
      return (.ok item, after)

/-- Pass the next item, if there is one. -/
def advance (c : Indexed α) : Except Fault (Option α × Indexed α) :=
  match c.items[c.index]? with
  | none => return (none, c)
  | some item => do
      let after ← c.forward 1
      return (some item, after)

/-- Step back over the item in front of the index. -/
def unread (c : Indexed α) : Except Fault (Indexed α) :=
  if c.index = 0 then .error .unreadAtStart else .ok { c with index := c.index - 1 }

end Indexed

/-! ## Requests -/

namespace Cursor

inductive Request where
  | peek (count : Nat)
  | peekOne
  | take (count : Nat)
  | takeOne
  | advance
  | unread
deriving DecidableEq

inductive Answer (α : Type) where
  | items (found : List α)
  | item (found : Option α)
  | short (shortage : Shortage)
  | done
deriving DecidableEq

end Cursor

namespace Indexed

variable {α : Type}

def respond (c : Indexed α) : Cursor.Request → Except Fault (Cursor.Answer α × Indexed α)
  | .peek n => do
      let found ← c.peek n
      return (.items found, c)
  | .peekOne => return (.item c.peekOne, c)
  | .take n => do
      match ← c.take n with
      | (.ok taken, after) => return (.items taken, after)
      | (.error shortage, after) => return (.short shortage, after)
  | .takeOne => do
      match ← c.takeOne with
      | (.ok item, after) => return (.item (some item), after)
      | (.error shortage, after) => return (.short shortage, after)
  | .advance => do
      let (found, after) ← c.advance
      return (.item found, after)
  | .unread => do
      let after ← c.unread
      return (.done, after)

def run (c : Indexed α) : List Cursor.Request → Except Fault (List (Cursor.Answer α) × Indexed α)
  | [] => return ([], c)
  | request :: requests => do
      let (answer, next) ← c.respond request
      let (answers, after) ← next.run requests
      return (answer :: answers, after)

end Indexed

namespace Cursor

variable {α : Type}

def respond (c : Cursor α) : Request → Answer α × Cursor α
  | .peek n => (.items (c.peek n), c)
  | .peekOne => (.item c.peekOne, c)
  | .take n =>
      match c.take n with
      | .ok (taken, after) => (.items taken, after)
      | .error shortage => (.short shortage, c)
  | .takeOne =>
      match c.takeOne with
      | .ok (item, after) => (.item (some item), after)
      | .error shortage => (.short shortage, c)
  | .advance => (.item c.advance.1, c.advance.2)
  | .unread => (.done, c.unread)

def run (c : Cursor α) : List Request → List (Answer α) × Cursor α
  | [] => ([], c)
  | request :: requests =>
      let (answer, next) := c.respond request
      let (answers, after) := next.run requests
      (answer :: answers, after)

/-- A step back is made only where an item has been passed. -/
def Permits (c : Cursor α) : List Request → Prop
  | [] => True
  | request :: requests =>
      (request = .unread → c.passed ≠ []) ∧ (c.respond request).2.Permits requests

/-- Permission is decided by the run on the split. -/
def decidePermits : (c : Cursor α) → (requests : List Request) → Decidable (c.Permits requests)
  | _, [] => inferInstanceAs (Decidable True)
  | c, request :: requests =>
      have := decidePermits (c.respond request).2 requests
      inferInstanceAs (Decidable
        ((request = .unread → c.passed ≠ []) ∧ (c.respond request).2.Permits requests))

instance (c : Cursor α) (requests : List Request) : Decidable (c.Permits requests) :=
  c.decidePermits requests

/-- The code of a cursor: the whole sequence and how much of it is passed. -/
def indexed (c : Cursor α) : Indexed α :=
  ⟨c.toList, c.index⟩

@[simp] theorem indexed_items (c : Cursor α) : c.indexed.items = c.toList := rfl

@[simp] theorem indexed_index (c : Cursor α) : c.indexed.index = c.index := rfl

theorem indexed_ofList (items : List α) : (ofList items).indexed = .ofList items := rfl

/-! ## One operation -/

variable {c : Cursor α}

theorem length_toList (c : Cursor α) : c.toList.length = c.index + c.remaining := by
  simp [toList, index, remaining]

theorem drop_toList (c : Cursor α) : c.toList.drop c.index = c.ahead := by
  simp [toList, index]

theorem getElem?_toList (c : Cursor α) : c.toList[c.index]? = c.ahead.head? := by
  rw [← List.head?_drop, drop_toList]

theorem index_skip {n : Nat} (h : n ≤ c.remaining) : (c.skip n).index = c.index + n := by
  have hcount : min n c.ahead.length = n := Nat.min_eq_left h
  simp [skip, index, hcount, Nat.add_comm]

theorem remaining_indexed (c : Cursor α) : c.indexed.remaining = .ok c.remaining := by
  have hlength := c.length_toList
  rw [Indexed.remaining, Indexed.difference_eq_ok (by simp only [indexed]; omega)]
  simp only [indexed]
  congr 1
  omega

theorem hasNext_indexed (c : Cursor α) : c.indexed.hasNext = c.hasNext := by
  have hlength := c.length_toList
  rw [Indexed.hasNext, indexed_items, indexed_index, hlength, hasNext, remaining]
  cases c.ahead with
  | nil => simp
  | cons item rest => simp

theorem slice_indexed {n : Nat} (h : n ≤ c.remaining) :
    Indexed.slice c.toList c.index (c.index + n) = .ok (c.ahead.take n) := by
  have hlength := c.length_toList
  rw [Indexed.slice_eq_ok (Nat.le_add_right c.index n) (by omega), drop_toList,
    Nat.add_sub_cancel_left]

theorem forward_indexed (hword : c.toList.length < wordCount) {n : Nat} (h : n ≤ c.remaining) :
    c.indexed.forward n = .ok (c.skip n).indexed := by
  have hlength := c.length_toList
  rw [Indexed.forward, indexed_index, Indexed.sum_eq_ok (by omega)]
  simp only [indexed, toList_skip, index_skip h]
  rfl

/-- However many items are asked for, the sum that saturates is no less than the place wanted. -/
theorem min_saturatingSum (hword : c.toList.length < wordCount) (n : Nat) :
    min (Indexed.saturatingSum c.index n) c.toList.length = c.index + min n c.remaining := by
  have hlength := c.length_toList
  unfold Indexed.saturatingSum
  omega

theorem peek_indexed (hword : c.toList.length < wordCount) (n : Nat) :
    c.indexed.peek n = .ok (c.ahead.take (min n c.remaining)) := by
  rw [Indexed.peek, indexed_items, indexed_index, min_saturatingSum hword,
    slice_indexed (Nat.min_le_right n c.remaining)]

theorem take_min_remaining (c : Cursor α) (n : Nat) :
    c.ahead.take (min n c.remaining) = c.peek n := by
  rw [remaining, peek, ← List.take_take, List.take_length]

theorem peekOne_indexed (c : Cursor α) : c.indexed.peekOne = c.peekOne :=
  c.getElem?_toList

theorem take_indexed_of_le (hword : c.toList.length < wordCount) {n : Nat}
    (h : n ≤ c.remaining) :
    c.indexed.take n = .ok (.ok (c.ahead.take n), (c.skip n).indexed) := by
  have hlength := c.length_toList
  have hsum : Indexed.sum c.index n = .ok (c.index + n) := Indexed.sum_eq_ok (by omega)
  simp only [Indexed.take, remaining_indexed, bind, Except.bind, indexed_items, indexed_index,
    if_neg (Nat.not_lt.mpr h), hsum, slice_indexed h, forward_indexed hword h]
  rfl

theorem take_indexed_of_lt {n : Nat} (h : c.remaining < n) :
    c.indexed.take n = .ok (.error ⟨n, c.remaining⟩, c.indexed) := by
  simp only [Indexed.take, remaining_indexed, bind, Except.bind, if_pos h]
  rfl

theorem takeOne_indexed_nil (passed : List α) :
    (indexed ⟨passed, []⟩).takeOne = .ok (.error ⟨1, 0⟩, indexed ⟨passed, []⟩) := by
  rw [Indexed.takeOne, indexed_items, indexed_index, getElem?_toList]
  rfl

theorem forward_indexed_cons {passed rest : List α} {item : α}
    (hword : (toList ⟨passed, item :: rest⟩).length < wordCount) :
    (indexed ⟨passed, item :: rest⟩).forward 1 = .ok (indexed ⟨item :: passed, rest⟩) :=
  forward_indexed hword (Nat.le_add_left 1 rest.length)

theorem takeOne_indexed_cons {passed rest : List α} {item : α}
    (hword : (toList ⟨passed, item :: rest⟩).length < wordCount) :
    (indexed ⟨passed, item :: rest⟩).takeOne = .ok (.ok item, indexed ⟨item :: passed, rest⟩) := by
  rw [Indexed.takeOne, indexed_items, indexed_index, getElem?_toList, List.head?_cons,
    forward_indexed_cons hword]
  rfl

theorem advance_indexed (hword : c.toList.length < wordCount) :
    c.indexed.advance = .ok (c.advance.1, c.advance.2.indexed) := by
  obtain ⟨passed, ahead⟩ := c
  rw [Indexed.advance, indexed_items, indexed_index, getElem?_toList]
  cases ahead with
  | nil => rfl
  | cons item rest =>
      rw [List.head?_cons, forward_indexed_cons hword]
      rfl

theorem unread_indexed_cons (item : α) (passed ahead : List α) :
    (indexed ⟨item :: passed, ahead⟩).unread = .ok (indexed ⟨passed, item :: ahead⟩) := by
  simp [Indexed.unread, indexed, toList, index]

theorem unread_indexed (h : c.passed ≠ []) : c.indexed.unread = .ok c.unread.indexed := by
  obtain ⟨passed, ahead⟩ := c
  cases passed with
  | nil => exact absurd rfl h
  | cons item rest => exact unread_indexed_cons item rest ahead

/-! ## Runs -/

theorem toList_respond (c : Cursor α) (request : Request) :
    (c.respond request).2.toList = c.toList := by
  cases request with
  | peek n => rfl
  | peekOne => rfl
  | take n =>
      by_cases h : c.remaining < n
      · simp [respond, take, h]
      · simp [respond, take, h, toList_skip]
  | takeOne =>
      obtain ⟨passed, ahead⟩ := c
      cases ahead with
      | nil => rfl
      | cons item rest => simp [respond, takeOne, toList]
  | advance => exact c.toList_advance
  | unread => exact c.toList_unread

theorem respond_indexed (hword : c.toList.length < wordCount) {request : Request}
    (h : request = .unread → c.passed ≠ []) :
    c.indexed.respond request = .ok ((c.respond request).1, (c.respond request).2.indexed) := by
  cases request with
  | peek n =>
      rw [Indexed.respond, peek_indexed hword, take_min_remaining]
      rfl
  | peekOne =>
      rw [Indexed.respond, peekOne_indexed]
      rfl
  | take n =>
      rcases Nat.lt_or_ge c.remaining n with hlt | hle
      · rw [Indexed.respond, take_indexed_of_lt hlt, respond, take, if_pos hlt]
        rfl
      · rw [Indexed.respond, take_indexed_of_le hword hle, respond, take,
          if_neg (Nat.not_lt.mpr hle)]
        rfl
  | takeOne =>
      obtain ⟨passed, ahead⟩ := c
      cases ahead with
      | nil =>
          rw [Indexed.respond, takeOne_indexed_nil]
          rfl
      | cons item rest =>
          rw [Indexed.respond, takeOne_indexed_cons hword]
          rfl
  | advance =>
      rw [Indexed.respond, advance_indexed hword]
      rfl
  | unread =>
      rw [Indexed.respond, unread_indexed (h rfl)]
      rfl

theorem toList_run (c : Cursor α) (requests : List Request) :
    (c.run requests).2.toList = c.toList := by
  induction requests generalizing c with
  | nil => rfl
  | cons request requests ih => exact (ih _).trans (c.toList_respond request)

/-- A run on codes gives the codes of the run, and the same answers. -/
theorem run_indexed (hword : c.toList.length < wordCount) {requests : List Request}
    (h : c.Permits requests) :
    c.indexed.run requests = .ok ((c.run requests).1, (c.run requests).2.indexed) := by
  induction requests generalizing c with
  | nil => rfl
  | cons request requests ih =>
      have hnext := ih (by rwa [toList_respond]) h.2
      rw [Indexed.run, respond_indexed hword h.1]
      simp only [bind, Except.bind, hnext]
      rfl

/-! ## Places -/

theorem indexed_skip {n : Nat} (h : n ≤ c.remaining) :
    (c.skip n).indexed = ⟨c.toList, c.index + n⟩ := by
  rw [indexed, toList_skip, index_skip h]

/-- A request that moves the index by one is undone by a step back. -/
theorem unread_of_respond (hword : c.toList.length < wordCount) {request : Request}
    {answer : Answer α} {after : Indexed α}
    (hrespond : c.indexed.respond request = .ok (answer, after))
    (hindex : after.index = c.index + 1) : after.unread = .ok c.indexed := by
  have hpermitted : request = .unread → c.passed ≠ [] := by
    rintro rfl hstart
    have hfault : c.indexed.unread = .error .unreadAtStart := by
      rw [Indexed.unread, indexed_index, index, hstart]
      rfl
    rw [Indexed.respond, hfault] at hrespond
    cases hrespond
  rw [respond_indexed hword hpermitted] at hrespond
  cases hrespond
  rw [indexed_index] at hindex
  rw [Indexed.unread, indexed_index, hindex, if_neg (Nat.succ_ne_zero c.index),
    Nat.add_sub_cancel, indexed_items, toList_respond]
  rfl

end Cursor

namespace Indexed

variable {α : Type}

/-- What a cursor by index is, and what it answers, between two parts of its sequence. -/
structure StandsBetween (c : Indexed α) (items passed ahead : List α) : Prop where
  sequence : c.items = items
  parts : passed ++ ahead = items
  index : c.index = passed.length
  remaining : c.remaining = .ok ahead.length
  hasNext : c.hasNext = !ahead.isEmpty
  peek : ∀ n, c.respond (.peek n) = .ok (.items (ahead.take (min n ahead.length)), c)
  peekOne : c.respond .peekOne = .ok (.item ahead.head?, c)
  take : ∀ n ≤ ahead.length, ∃ taken rest, ahead = taken ++ rest ∧ taken.length = n ∧
    c.respond (.take n) = .ok (.items taken, ⟨items, c.index + n⟩)
  take_short : ∀ n, ahead.length < n →
    c.respond (.take n) = .ok (.short ⟨n, ahead.length⟩, c)
  one : ∀ item rest, ahead = item :: rest →
    c.respond .takeOne = .ok (.item (some item), ⟨items, c.index + 1⟩) ∧
      c.respond .advance = .ok (.item (some item), ⟨items, c.index + 1⟩)
  one_short : ahead = [] →
    c.respond .takeOne = .ok (.short ⟨1, ahead.length⟩, c) ∧
      c.respond .advance = .ok (.item none, c)
  unread : passed ≠ [] → c.respond .unread = .ok (.done, ⟨items, c.index - 1⟩)
  undone : ∀ request answer after, c.respond request = .ok (answer, after) →
    after.index = c.index + 1 → after.respond .unread = .ok (.done, c)

end Indexed

namespace Cursor

variable {α : Type} {c : Cursor α}

theorem standsBetween_indexed (hword : c.toList.length < wordCount) :
    c.indexed.StandsBetween c.toList c.passed.reverse c.ahead where
  sequence := rfl
  parts := rfl
  index := c.passed.length_reverse.symm
  remaining := c.remaining_indexed
  hasNext := c.hasNext_indexed
  peek n := by
    rw [Indexed.respond, peek_indexed hword]
    rfl
  peekOne := by
    rw [Indexed.respond, peekOne_indexed]
    rfl
  take n hn := by
    refine ⟨c.ahead.take n, c.ahead.drop n, (List.take_append_drop n c.ahead).symm,
      List.length_take_of_le hn, ?_⟩
    rw [Indexed.respond, take_indexed_of_le hword hn, indexed_skip hn]
    rfl
  take_short n hn := by
    rw [Indexed.respond, take_indexed_of_lt hn]
    rfl
  one item rest hahead := by
    obtain ⟨passed, ahead⟩ := c
    cases hahead
    have hafter : indexed ⟨item :: passed, rest⟩ =
        ⟨toList ⟨passed, item :: rest⟩, index ⟨passed, item :: rest⟩ + 1⟩ :=
      indexed_skip (c := ⟨passed, item :: rest⟩) (Nat.le_add_left 1 rest.length)
    constructor
    · rw [Indexed.respond, takeOne_indexed_cons hword, hafter]
      rfl
    · rw [Indexed.respond, advance_indexed hword]
      exact congrArg (fun after => Except.ok (Answer.item (some item), after)) hafter
  one_short hahead := by
    obtain ⟨passed, ahead⟩ := c
    cases hahead
    constructor
    · rw [Indexed.respond, takeOne_indexed_nil]
      rfl
    · rw [Indexed.respond, advance_indexed hword]
      rfl
  unread hpassed := by
    rw [Indexed.respond, Indexed.unread, if_neg]
    · rfl
    · intro hstart
      exact hpassed (List.reverse_eq_nil_iff.mpr (List.eq_nil_of_length_eq_zero hstart))
  undone request answer after hrespond hindex := by
    rw [Indexed.respond, unread_of_respond hword hrespond hindex]
    rfl

end Cursor
end ComponentMarkup
