/-!
# Dictionaries

A dictionary holds one entry for each of its keys, in the order of the keys by
code points.  Inserting a key that is present replaces its entry.
-/

namespace ComponentMarkup

/-- Entries by key, in the order of the keys. -/
structure Dictionary (α : Type) where
  entries : List (String × α)

namespace Dictionary

variable {α : Type}

def empty : Dictionary α :=
  ⟨[]⟩

/-- Put an entry in its place in an ordered list of entries. -/
def insertEntry (key : String) (entry : α) : List (String × α) → List (String × α)
  | [] => [(key, entry)]
  | (other, old) :: rest =>
      if key = other then (key, entry) :: rest
      else if key < other then (key, entry) :: (other, old) :: rest
      else (other, old) :: insertEntry key entry rest

/-- Insert an entry, in place of the entry with the same key if there is one. -/
def insert (d : Dictionary α) (key : String) (entry : α) : Dictionary α :=
  ⟨insertEntry key entry d.entries⟩

/-- Insert entries one after another, so that the last one of a key remains. -/
def insertAll (d : Dictionary α) (entries : List (String × α)) : Dictionary α :=
  entries.foldl (fun d entry => d.insert entry.1 entry.2) d

def find? (d : Dictionary α) (key : String) : Option α :=
  d.entries.lookup key

def keys (d : Dictionary α) : List String :=
  d.entries.map Prod.fst

def values (d : Dictionary α) : List α :=
  d.entries.map Prod.snd

def size (d : Dictionary α) : Nat :=
  d.entries.length

theorem lookup_cons_of_eq (name : String) (entry : α) (rest : List (String × α)) :
    List.lookup name ((name, entry) :: rest) = some entry := by
  simp

theorem lookup_cons_of_ne {name key : String} (h : name ≠ key) (entry : α)
    (rest : List (String × α)) :
    List.lookup name ((key, entry) :: rest) = List.lookup name rest := by
  rw [List.lookup_cons, beq_eq_false_iff_ne.mpr h]

theorem lookup_cons_eq_if (name key : String) (entry : α) (rest : List (String × α)) :
    List.lookup name ((key, entry) :: rest) =
      if name = key then some entry else List.lookup name rest := by
  by_cases h : name = key
  · rw [if_pos h, h, lookup_cons_of_eq]
  · rw [if_neg h, lookup_cons_of_ne h]

theorem mem_of_lookup {name : String} {entry : α} {entries : List (String × α)}
    (h : entries.lookup name = some entry) : (name, entry) ∈ entries := by
  obtain ⟨before, after, rfl, -⟩ := List.lookup_eq_some_iff.mp h
  exact List.mem_append_right before List.mem_cons_self

theorem lookup_insertEntry (key name : String) (entry : α) (entries : List (String × α)) :
    (insertEntry key entry entries).lookup name =
      if name = key then some entry else entries.lookup name := by
  induction entries with
  | nil =>
      by_cases h : name = key
      · subst h
        rw [if_pos rfl, insertEntry, lookup_cons_of_eq]
      · rw [if_neg h, insertEntry, lookup_cons_of_ne h]
  | cons first rest ih =>
      obtain ⟨other, old⟩ := first
      rw [insertEntry]
      by_cases hname : name = key
      · subst hname
        rw [if_pos rfl]
        rw [if_pos rfl] at ih
        by_cases hother : name = other
        · rw [if_pos hother, lookup_cons_of_eq]
        · rw [if_neg hother]
          by_cases hlt : name < other
          · rw [if_pos hlt, lookup_cons_of_eq]
          · rw [if_neg hlt, lookup_cons_of_ne hother, ih]
      · rw [if_neg hname]
        rw [if_neg hname] at ih
        by_cases hother : key = other
        · subst hother
          rw [if_pos rfl, lookup_cons_of_ne hname, lookup_cons_of_ne hname]
        · rw [if_neg hother]
          by_cases hlt : key < other
          · rw [if_pos hlt, lookup_cons_of_ne hname]
          · rw [if_neg hlt, List.lookup_cons, List.lookup_cons, ih]

/-- After an insertion the key has the new entry and every other key its own. -/
theorem find?_insert (d : Dictionary α) (key name : String) (entry : α) :
    (d.insert key entry).find? name = if name = key then some entry else d.find? name :=
  lookup_insertEntry key name entry d.entries

end Dictionary
end ComponentMarkup
