/-!
# Cursors

A cursor is a place in a sequence: the items already passed, nearest first, and
the items ahead.  Moving the cursor never changes the sequence, so a request for
more items than are ahead fails and leaves the cursor where it is.
-/

namespace ComponentMarkup

structure Shortage where
  requested : Nat
  remaining : Nat
deriving DecidableEq

def Shortage.message (s : Shortage) : String :=
  s!"unexpected end of input: needed {s.requested} more item(s), {s.remaining} left"

structure Cursor (α : Type) where
  /-- The items before the place, nearest first. -/
  passed : List α
  /-- The items behind the place, nearest first. -/
  ahead : List α

namespace Cursor

variable {α : Type}

def ofList (items : List α) : Cursor α :=
  ⟨[], items⟩

def toList (c : Cursor α) : List α :=
  c.passed.reverse ++ c.ahead

def index (c : Cursor α) : Nat :=
  c.passed.length

def remaining (c : Cursor α) : Nat :=
  c.ahead.length

def hasNext (c : Cursor α) : Bool :=
  !c.ahead.isEmpty

/-- The next `n` items, or as many as there are. -/
def peek (c : Cursor α) (n : Nat) : List α :=
  c.ahead.take n

def peekOne (c : Cursor α) : Option α :=
  c.ahead.head?

/-- Pass the next `n` items, or as many as there are. -/
def skip (c : Cursor α) (n : Nat) : Cursor α :=
  ⟨(c.ahead.take n).reverse ++ c.passed, c.ahead.drop n⟩

/-- Take exactly the next `n` items. -/
def take (c : Cursor α) (n : Nat) : Except Shortage (List α × Cursor α) :=
  if c.remaining < n then .error ⟨n, c.remaining⟩
  else .ok (c.peek n, c.skip n)

def takeOne (c : Cursor α) : Except Shortage (α × Cursor α) :=
  match c.ahead with
  | [] => .error ⟨1, 0⟩
  | item :: rest => .ok (item, ⟨item :: c.passed, rest⟩)

/-- Pass the next item, if there is one. -/
def advance (c : Cursor α) : Option α × Cursor α :=
  match c.ahead with
  | [] => (none, c)
  | item :: rest => (some item, ⟨item :: c.passed, rest⟩)

def unread (c : Cursor α) : Cursor α :=
  match c.passed with
  | [] => c
  | item :: rest => ⟨rest, item :: c.ahead⟩

@[simp] theorem toList_ofList (items : List α) : (ofList items).toList = items := rfl

theorem toList_skip (c : Cursor α) (n : Nat) : (c.skip n).toList = c.toList := by
  simp [toList, skip]

theorem toList_advance (c : Cursor α) : c.advance.2.toList = c.toList := by
  unfold advance
  split
  · rfl
  · rename_i h
    simp [toList, h]

theorem toList_unread (c : Cursor α) : c.unread.toList = c.toList := by
  unfold unread
  split
  · rfl
  · rename_i h
    simp [toList, h]

end Cursor
end ComponentMarkup
