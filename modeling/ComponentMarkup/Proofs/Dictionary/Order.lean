import ComponentMarkup.Dictionary

/-!
# The order of a dictionary

Insertion keeps the keys of a dictionary in order, each of them once.  A dictionary in
order is given by what it finds for each key, and of the entries that are inserted for
one key it keeps the last.
-/

namespace ComponentMarkup
namespace Dictionary

variable {α : Type}

/-- Whether the keys are in order, each of them once. -/
def Ordered (d : Dictionary α) : Prop :=
  d.keys.Pairwise (· < ·)

theorem ordered_empty : (empty : Dictionary α).Ordered :=
  List.Pairwise.nil

/-! ## Inserting -/

theorem mem_keys_insertEntry {key name : String} {entry : α} {entries : List (String × α)}
    (h : name ∈ (insertEntry key entry entries).map Prod.fst) :
    name = key ∨ name ∈ entries.map Prod.fst := by
  induction entries with
  | nil => exact .inl (List.mem_singleton.mp h)
  | cons first rest ih =>
      rw [insertEntry] at h
      split at h
      · rename_i hsame
        rw [List.map_cons, hsame] at h
        exact .inr h
      · split at h
        · exact List.mem_cons.mp h
        · rcases List.mem_cons.mp h with hfirst | hrest
          · exact .inr (hfirst ▸ List.mem_cons_self)
          · exact (ih hrest).imp_right (List.mem_cons_of_mem _)

theorem pairwise_insertEntry {entries : List (String × α)}
    (h : (entries.map Prod.fst).Pairwise (· < ·)) (key : String) (entry : α) :
    ((insertEntry key entry entries).map Prod.fst).Pairwise (· < ·) := by
  induction entries with
  | nil => exact List.pairwise_singleton _ key
  | cons first rest ih =>
      have hparts := List.pairwise_cons.mp h
      rw [insertEntry]
      split
      · rename_i hsame
        rw [List.map_cons, hsame]
        exact h
      · rename_i hdiffers
        split
        · rename_i hbefore
          apply List.Pairwise.cons _ h
          intro name hname
          rcases List.mem_cons.mp hname with rfl | hrest
          · exact hbefore
          · exact String.lt_trans hbefore (hparts.1 name hrest)
        · rename_i hnotBefore
          apply List.Pairwise.cons _ (ih hparts.2)
          intro name hname
          rcases mem_keys_insertEntry hname with rfl | hrest
          · apply String.not_le.mp
            intro hle
            exact hdiffers (String.le_antisymm hle (String.not_lt.mp hnotBefore))
          · exact hparts.1 name hrest

theorem Ordered.insert {d : Dictionary α} (h : d.Ordered) (key : String) (entry : α) :
    (d.insert key entry).Ordered :=
  pairwise_insertEntry h key entry

theorem Ordered.insertAll {d : Dictionary α} (h : d.Ordered) (entries : List (String × α)) :
    (d.insertAll entries).Ordered := by
  induction entries generalizing d with
  | nil => exact h
  | cons entry rest ih => exact ih (h.insert entry.1 entry.2)

/-- Of several entries for one key the last one is found. -/
theorem find?_insertAll (d : Dictionary α) (entries : List (String × α)) (key : String) :
    (d.insertAll entries).find? key = (entries.reverse.lookup key).or (d.find? key) := by
  induction entries generalizing d with
  | nil => rfl
  | cons entry rest ih =>
      have hstep : d.insertAll (entry :: rest) = (d.insert entry.1 entry.2).insertAll rest := rfl
      rw [hstep, ih, find?_insert, List.reverse_cons, List.lookup_append, Option.or_assoc,
        lookup_cons_eq_if]
      by_cases hkey : key = entry.1
      · rw [if_pos hkey, if_pos hkey, Option.some_or]
      · rw [if_neg hkey, if_neg hkey, List.lookup_nil, Option.none_or]

theorem find?_insertAll_empty (entries : List (String × α)) (key : String) :
    (empty.insertAll entries).find? key = entries.reverse.lookup key := by
  rw [find?_insertAll]
  exact Option.or_none

/-! ## Entries by key -/

theorem Ordered.pairwise_entries {d : Dictionary α} (h : d.Ordered) :
    d.entries.Pairwise fun entry other => entry.1 < other.1 :=
  List.pairwise_map.mp h

theorem Ordered.nodup_entries {d : Dictionary α} (h : d.Ordered) : d.entries.Nodup :=
  h.pairwise_entries.imp fun hlt hsame => String.ne_of_lt hlt (congrArg Prod.fst hsame)

theorem Ordered.mem_entries_iff {d : Dictionary α} (h : d.Ordered) {key : String} {entry : α} :
    (key, entry) ∈ d.entries ↔ d.find? key = some entry := by
  constructor
  · intro hmem
    obtain ⟨before, after, hsplit⟩ := List.mem_iff_append.mp hmem
    apply List.lookup_eq_some_iff.mpr
    refine ⟨before, after, hsplit, ?_⟩
    intro other hother
    have hentries := h.pairwise_entries
    rw [hsplit] at hentries
    have hlt : other.1 < key :=
      (List.pairwise_append.mp hentries).2.2 other hother (key, entry) List.mem_cons_self
    exact bne_iff_ne.mpr (String.ne_of_lt hlt).symm
  · exact mem_of_lookup

/-- Two dictionaries in order that find the same for each key are the same. -/
theorem Ordered.ext {d other : Dictionary α} (h : d.Ordered) (hother : other.Ordered)
    (hfind : ∀ key, d.find? key = other.find? key) : d = other := by
  have hperm : d.entries.Perm other.entries := by
    apply (List.perm_ext_iff_of_nodup h.nodup_entries hother.nodup_entries).mpr
    rintro ⟨key, entry⟩
    rw [h.mem_entries_iff, hother.mem_entries_iff, hfind key]
  have hsame : d.entries = other.entries := by
    apply List.Perm.eq_of_pairwise _ h.pairwise_entries hother.pairwise_entries hperm
    intro a b _ _ hbefore hbehind
    exact absurd hbehind (String.lt_asymm hbefore)
  exact congrArg Dictionary.mk hsame

end Dictionary
end ComponentMarkup
