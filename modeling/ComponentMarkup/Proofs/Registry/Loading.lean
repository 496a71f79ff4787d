import Mathlib.Data.List.Forall2
import ComponentMarkup.Proofs.Dictionary.Order
import ComponentMarkup.Proofs.Text.LowerCase
import ComponentMarkup.Registry.Loading

/-!
# What a stored registry holds

The entries of a stored registry are used in the order of their keys.  So of keys that
are the same in lower case the greatest gives the component, and of entries that cannot
be used the one with the smallest key is reported.
-/

namespace ComponentMarkup

/-- The first element of a list without a property, if there is one. -/
theorem exists_first_not {α : Type} {p : α → Prop} {xs : List α} (h : ¬ ∀ x ∈ xs, p x) :
    ∃ before x after, xs = before ++ x :: after ∧ (∀ y ∈ before, p y) ∧ ¬ p x := by
  induction xs with
  | nil => exact absurd (List.forall_mem_nil p) h
  | cons x rest ih =>
      by_cases hx : p x
      · have hrest : ¬ ∀ y ∈ rest, p y := fun hall => h (List.forall_mem_cons.mpr ⟨hx, hall⟩)
        obtain ⟨before, y, after, rfl, hbefore, hy⟩ := ih hrest
        exact ⟨x :: before, y, after, rfl, List.forall_mem_cons.mpr ⟨hx, hbefore⟩, hy⟩
      · exact ⟨[], x, rest, rfl, List.forall_mem_nil p, hx⟩

theorem mapM_eq_some_iff {α β : Type} {f : α → Option β} {xs : List α} {ys : List β} :
    xs.mapM f = some ys ↔ List.Forall₂ (fun x y => f x = some y) xs ys := by
  induction xs generalizing ys with
  | nil => cases ys <;> simp
  | cons x rest ih =>
      rw [List.mapM_cons, List.forall₂_cons_left_iff]
      simp only [Option.bind_eq_bind, Option.bind_eq_some_iff, Option.pure_def,
        Option.some.injEq, ih]
      constructor
      · rintro ⟨y, hy, others, hothers, rfl⟩
        exact ⟨y, others, hy, hothers, rfl⟩
      · rintro ⟨y, others, hy, hothers, rfl⟩
        exact ⟨y, hy, others, hothers, rfl⟩

theorem exists_mapM_iff {α β : Type} {f : α → Option β} {xs : List α} :
    (∃ ys, xs.mapM f = some ys) ↔ ∀ x ∈ xs, ∃ y, f x = some y := by
  induction xs with
  | nil => simp
  | cons x rest ih =>
      rw [List.forall_mem_cons, ← ih]
      simp only [mapM_eq_some_iff, List.forall₂_cons_left_iff]
      constructor
      · rintro ⟨_, y, others, hy, hothers, rfl⟩
        exact ⟨⟨y, hy⟩, others, hothers⟩
      · rintro ⟨⟨y, hy⟩, others, hothers⟩
        exact ⟨y :: others, y, others, hy, hothers, rfl⟩

/-! ## Entries -/

namespace StoredComponent

/-- Whether an argument starts with the name of a parameter. -/
def StartsWith (argument : List Json.Value) (name : String) : Prop :=
  argument.head? = some (.string name) ∧ name ≠ ""

/-- Whether an argument starts with the name of some parameter. -/
def IsNamed (argument : List Json.Value) : Prop :=
  ∃ name, StartsWith argument name

/-- Whether each argument of an entry starts with the name of a parameter. -/
def AllNamed (stored : StoredComponent) : Prop :=
  ∀ argument ∈ stored.arguments, IsNamed argument

/-- Whether an entry has an argument without a name at some index and none before. -/
def FirstUnnamed (stored : StoredComponent) (index : Nat) : Prop :=
  ∃ before argument after, stored.arguments = before ++ argument :: after ∧
    before.length = index ∧ (∀ other ∈ before, IsNamed other) ∧ ¬ IsNamed argument

/-- Whether a component of some name is what an entry says. -/
structure Means (stored : StoredComponent) (name : String) (c : Component) : Prop where
  name_eq : c.name = name
  parameters : List.Forall₂ StartsWith stored.arguments c.parameters
  usage : c.usage = stored.usage
  html : c.html = stored.html
  style : c.style = stored.style
  script : c.script = stored.script

theorem parameterName?_eq_some {argument : List Json.Value} {name : String} :
    parameterName? argument = some name ↔ StartsWith argument name := by
  unfold parameterName? StartsWith
  split
  · rename_i text others
    rw [List.head?_cons, Option.some.injEq, Json.Value.string.injEq]
    split
    · rename_i hempty
      rw [String.isEmpty_iff.mp hempty]
      simp only [reduceCtorEq, false_iff, not_and, not_not]
      exact Eq.symm
    · rename_i hnonempty
      rw [String.isEmpty_iff] at hnonempty
      rw [Option.some.injEq]
      constructor
      · rintro rfl
        exact ⟨rfl, hnonempty⟩
      · exact And.left
  · rename_i hother
    simp only [reduceCtorEq, false_iff, not_and]
    intro hhead
    cases argument with
    | nil => cases hhead
    | cons first others =>
        cases hhead
        exact absurd rfl (hother name others)

theorem exists_parameterNames {arguments : List (List Json.Value)}
    (h : ∀ argument ∈ arguments, IsNamed argument) (component : String) (index : Nat) :
    ∃ names, parameterNames component index arguments = .ok names ∧
      List.Forall₂ StartsWith arguments names := by
  induction arguments generalizing index with
  | nil => exact ⟨[], rfl, .nil⟩
  | cons argument rest ih =>
      obtain ⟨⟨name, hname⟩, hrest⟩ := List.forall_mem_cons.mp h
      obtain ⟨names, hnames, heach⟩ := ih hrest (index + 1)
      refine ⟨name :: names, ?_, .cons hname heach⟩
      rw [parameterNames, parameterName?_eq_some.mpr hname]
      dsimp only
      rw [hnames]
      rfl

theorem parameterNames_of_unnamed {before after : List (List Json.Value)}
    {argument : List Json.Value} (hbefore : ∀ other ∈ before, IsNamed other)
    (hargument : ¬ IsNamed argument) (component : String) (index : Nat) :
    parameterNames component index (before ++ argument :: after) =
      .error (.missingParameterName component (index + before.length)) := by
  induction before generalizing index with
  | nil =>
      have hnone : parameterName? argument = none := by
        rw [Option.eq_none_iff_forall_ne_some]
        exact fun name hname => hargument ⟨name, parameterName?_eq_some.mp hname⟩
      rw [List.nil_append, parameterNames, hnone]
      rfl
  | cons other rest ih =>
      obtain ⟨⟨name, hname⟩, hrest⟩ := List.forall_mem_cons.mp hbefore
      rw [List.cons_append, parameterNames, parameterName?_eq_some.mpr hname]
      dsimp only
      rw [ih hrest, List.length_cons, Nat.add_right_comm, Nat.add_assoc]
      rfl

theorem exists_toComponent {stored : StoredComponent} (h : stored.AllNamed) (key : String) :
    ∃ c, stored.toComponent key = .ok c ∧ stored.Means (Text.lowercase key) c := by
  obtain ⟨names, hnames, heach⟩ := exists_parameterNames h (Text.lowercase key) 0
  rw [toComponent, hnames]
  exact ⟨_, rfl, rfl, heach, rfl, rfl, rfl, rfl⟩

theorem toComponent_of_firstUnnamed {stored : StoredComponent} {index : Nat}
    (h : stored.FirstUnnamed index) (key : String) :
    stored.toComponent key = .error (.missingParameterName (Text.lowercase key) index) := by
  obtain ⟨before, argument, after, hsplit, rfl, hbefore, hargument⟩ := h
  rw [toComponent, hsplit, parameterNames_of_unnamed hbefore hargument, Nat.zero_add]
  rfl

theorem exists_firstUnnamed {stored : StoredComponent} (h : ¬ stored.AllNamed) :
    ∃ index, stored.FirstUnnamed index := by
  obtain ⟨before, argument, after, hsplit, hbefore, hargument⟩ := exists_first_not h
  exact ⟨before.length, before, argument, after, hsplit, rfl, hbefore, hargument⟩

end StoredComponent

namespace Registry

/-! ## Entries one after another -/

/-- What is stored under a key: of several entries the last one counts. -/
def storedAt (entries : List (String × StoredComponent)) (key : String) :
    Option StoredComponent :=
  entries.reverse.lookup key

/-- Whether a registry has its names in order and holds what is stored under some keys: for
each name that is a key in lower case what the greatest of its keys says, and nothing
else. -/
structure Holds (r : Registry) (stored : String → Option StoredComponent) : Prop where
  names_ordered : r.names.Pairwise (· < ·)
  lookup_greatest : ∀ key entry, stored key = some entry →
    (∀ other, (stored other).isSome = true → Text.lowercase other = Text.lowercase key →
      other ≤ key) →
    ∃ c, r.lookup (Text.lowercase key) = some c ∧ entry.Means (Text.lowercase key) c
  lookup_none : ∀ name, (∀ key, (stored key).isSome = true → Text.lowercase key ≠ name) →
    r.lookup name = none

theorem holds_empty : empty.Holds (List.lookup · []) where
  names_ordered := Dictionary.ordered_empty
  lookup_greatest := fun _ _ h => nomatch h
  lookup_none := fun _ _ => rfl

section Steps

variable {r : Registry} {before : List (String × StoredComponent)} {key : String}
  {entry : StoredComponent}

theorem lookup_append_greatest (hkey : ∀ other ∈ before, other.1 < key) (name : String) :
    (before ++ [(key, entry)]).lookup name =
      if name = key then some entry else before.lookup name := by
  rw [List.lookup_append, Dictionary.lookup_cons_eq_if, List.lookup_nil]
  split
  · rename_i hname
    have hnone : before.lookup name = none := by
      apply List.lookup_eq_none_iff.mpr
      intro other hother
      rw [hname]
      exact bne_iff_ne.mpr (String.ne_of_lt (hkey other hother)).symm
    rw [hnone, Option.none_or]
  · exact Option.or_none

theorem le_of_isSome_lookup (hkey : ∀ other ∈ before, other.1 < key) {name : String}
    (h : (before.lookup name).isSome = true) : name < key := by
  obtain ⟨found, hfound⟩ := Option.isSome_iff_exists.mp h
  exact hkey (name, found) (Dictionary.mem_of_lookup hfound)

/-- The entry with the greatest key so far replaces those of its name. -/
theorem Holds.add (h : r.Holds (before.lookup ·)) (hkey : ∀ other ∈ before, other.1 < key)
    {c : Component} (hc : entry.Means (Text.lowercase key) c) :
    (r.add c).Holds ((before ++ [(key, entry)]).lookup ·) := by
  have hlookup : ∀ name, (r.add c).lookup name =
      if name = Text.lowercase key then some c else r.lookup name := by
    intro name
    rw [lookup_add, hc.name_eq, Text.lowercase_lowercase]
  have hstored : ∀ name, (before ++ [(key, entry)]).lookup name =
      if name = key then some entry else before.lookup name := lookup_append_greatest hkey
  have hself : ((before ++ [(key, entry)]).lookup key).isSome = true := by
    rw [hstored, if_pos rfl]
    rfl
  have hearlier : ∀ name, name ≠ key →
      (before ++ [(key, entry)]).lookup name = before.lookup name := by
    intro name hname
    rw [hstored, if_neg hname]
  constructor
  · exact Dictionary.Ordered.insert h.names_ordered _ c
  · intro name found hfound hgreatest
    rw [hlookup]
    by_cases hsame : Text.lowercase name = Text.lowercase key
    · -- No earlier key is as great as the new one.
      have hname : name = key := by
        by_contra hdiffers
        have hlt : name < key := by
          apply le_of_isSome_lookup hkey
          rw [← hearlier name hdiffers, hfound]
          rfl
        exact String.not_le.mpr hlt (hgreatest key hself hsame.symm)
      rw [hname, hstored, if_pos rfl] at hfound
      rw [if_pos hsame, hsame]
      cases hfound
      exact ⟨c, rfl, hc⟩
    · have hname : name ≠ key := fun heq => hsame (congrArg Text.lowercase heq)
      rw [if_neg hsame]
      apply h.lookup_greatest name found
      · rw [← hearlier name hname, hfound]
      · intro other hother hlower
        have hdiffers : other ≠ key := by
          rintro rfl
          exact hsame hlower.symm
        apply hgreatest other _ hlower
        rw [hearlier other hdiffers]
        exact hother
  · intro name hname
    rw [hlookup, if_neg (hname key hself).symm]
    apply h.lookup_none
    intro other hother
    apply hname
    rw [hstored]
    split
    · rfl
    · exact hother

theorem exists_addStored (h : entry.AllNamed) (r : Registry) (key : String) :
    ∃ c, r.addStored (key, entry) = .ok (r.add c) ∧ entry.Means (Text.lowercase key) c := by
  obtain ⟨c, hcomponent, hmeans⟩ := StoredComponent.exists_toComponent h key
  refine ⟨c, ?_, hmeans⟩
  rw [addStored, hcomponent]
  rfl

/-- Entries in the order of their keys are added to those before them. -/
theorem exists_foldlM_addStored {rest : List (String × StoredComponent)}
    (hordered : (before ++ rest).Pairwise fun a b => a.1 < b.1)
    (hnamed : ∀ added ∈ rest, added.2.AllNamed) (h : r.Holds (before.lookup ·)) :
    ∃ full, rest.foldlM addStored r = .ok full ∧ full.Holds ((before ++ rest).lookup ·) := by
  induction rest generalizing before r with
  | nil =>
      rw [List.append_nil]
      exact ⟨r, rfl, h⟩
  | cons added rest ih =>
      rcases added with ⟨key, entry⟩
      obtain ⟨hentry, hrest⟩ := List.forall_mem_cons.mp hnamed
      obtain ⟨c, hadd, hmeans⟩ := exists_addStored hentry r key
      have hkey : ∀ other ∈ before, other.1 < key := fun other hother =>
        (List.pairwise_append.mp hordered).2.2 other hother (key, entry) List.mem_cons_self
      rw [List.append_cons] at hordered ⊢
      obtain ⟨full, hfull, hholds⟩ := ih hordered hrest (h.add hkey hmeans)
      refine ⟨full, ?_, hholds⟩
      rw [List.foldlM_cons, hadd]
      exact hfull

/-- The first entry that cannot be used is reported. -/
theorem foldlM_addStored_of_firstUnnamed (hbefore : ∀ added ∈ before, added.2.AllNamed)
    {index : Nat} (h : entry.FirstUnnamed index) (key : String)
    (after : List (String × StoredComponent)) (r : Registry) :
    (before ++ (key, entry) :: after).foldlM addStored r =
      .error (.missingParameterName (Text.lowercase key) index) := by
  induction before generalizing r with
  | nil =>
      rw [List.nil_append, List.foldlM_cons, addStored,
        StoredComponent.toComponent_of_firstUnnamed h]
      rfl
  | cons added rest ih =>
      rcases added with ⟨name, earlier⟩
      obtain ⟨hearlier, hrest⟩ := List.forall_mem_cons.mp hbefore
      obtain ⟨c, hadd, -⟩ := exists_addStored hearlier r name
      rw [List.cons_append, List.foldlM_cons, hadd]
      exact ih hrest (r.add c)

end Steps

/-! ## Members in any order -/

section Members

variable {members : List (Option String × Json.Tree)} {entries : List (String × StoredComponent)}

theorem entry?_eq_some {member : Option String × Json.Tree} {entry : String × StoredComponent} :
    entry? member = some entry ↔
      member.1 = some entry.1 ∧ StoredComponent.ofTree? member.2 = some entry.2 := by
  rcases entry with ⟨key, stored⟩
  unfold entry?
  simp [Option.bind_eq_some_iff]

theorem lookup_of_forall₂
    (h : List.Forall₂ (fun member entry => entry? member = some entry) members entries)
    (key : String) :
    entries.lookup key = (members.lookup (some key)).bind StoredComponent.ofTree? := by
  induction h with
  | nil => rfl
  | cons hfirst _ ih =>
      rename_i member entry _ _ _
      obtain ⟨hname, hstored⟩ := entry?_eq_some.mp hfirst
      rw [List.lookup_cons, List.lookup_cons, hname]
      by_cases hkey : key = entry.1
      · rw [beq_iff_eq.mpr hkey, beq_iff_eq.mpr (congrArg some hkey)]
        exact hstored.symm
      · have hother : (some key == some entry.1) = false :=
          beq_eq_false_iff_ne.mpr fun hsame => hkey (Option.some.inj hsame)
        rw [beq_eq_false_iff_ne.mpr hkey, hother]
        exact ih

theorem storedAt_eq_bind (h : members.mapM entry? = some entries) (key : String) :
    storedAt entries key = (members.reverse.lookup (some key)).bind StoredComponent.ofTree? :=
  lookup_of_forall₂ (List.forall₂_reverse_iff.mpr (mapM_eq_some_iff.mp h)) key

theorem lookup_reverse_filter (members : List (Option String × Json.Tree))
    (key : Option String) :
    (members.filter fun member => member.1 = key).reverse.lookup key =
      members.reverse.lookup key := by
  rw [← List.filter_reverse]
  induction members.reverse with
  | nil => rfl
  | cons member rest ih =>
      rw [List.filter_cons, List.lookup_cons]
      by_cases hkey : member.1 = key
      · rw [if_pos (decide_eq_true hkey), List.lookup_cons, hkey, beq_self_eq_true]
      · have hother : (key == member.1) = false := beq_eq_false_iff_ne.mpr (Ne.symm hkey)
        rw [if_neg (by simpa using hkey), hother]
        exact ih

/-- Members may change their places with members of other keys. -/
theorem entries?_of_filter_eq {others : List (Option String × Json.Tree)}
    (h : members.mapM entry? = some entries)
    (hsame : ∀ key, (others.filter fun member => member.1 = key) =
      members.filter fun member => member.1 = key) :
    entries? (.object others) = entries? (.object members) := by
  obtain ⟨found, hfound⟩ : ∃ found, others.mapM entry? = some found := by
    apply exists_mapM_iff.mpr
    intro member hmember
    apply exists_mapM_iff.mp ⟨entries, h⟩
    have hboth : member ∈ members.filter fun other => other.1 = member.1 := by
      rw [← hsame]
      exact List.mem_filter.mpr ⟨hmember, decide_eq_true rfl⟩
    exact (List.mem_filter.mp hboth).1
  have hfind : ∀ key, (Dictionary.empty.insertAll found).find? key =
      (Dictionary.empty.insertAll entries).find? key := by
    intro key
    rw [Dictionary.find?_insertAll_empty, Dictionary.find?_insertAll_empty]
    have hboth : storedAt found key = storedAt entries key := by
      rw [storedAt_eq_bind hfound, storedAt_eq_bind h, ← lookup_reverse_filter others,
        ← lookup_reverse_filter members, hsame]
    exact hboth
  dsimp only [entries?]
  rw [h, hfound]
  exact congrArg some
    ((Dictionary.ordered_empty.insertAll found).ext (Dictionary.ordered_empty.insertAll entries)
      hfind)

end Members

/-! ## The whole registry -/

section Loading

variable {s : String} {members : List (Option String × Json.Tree)}
  {entries : List (String × StoredComponent)}

theorem ofJson_eq_foldlM (hread : Json.Tree.read? s = some (.object members))
    (hentries : members.mapM entry? = some entries) :
    ofJson s = (Dictionary.empty.insertAll entries).entries.foldlM addStored empty := by
  rw [ofJson, hread, Option.bind_some, entries?, hentries]
  rfl

theorem mem_entries_insertAll_iff {key : String} {entry : StoredComponent} :
    (key, entry) ∈ (Dictionary.empty.insertAll entries).entries ↔
      storedAt entries key = some entry := by
  rw [(Dictionary.ordered_empty.insertAll entries).mem_entries_iff,
    Dictionary.find?_insertAll_empty]
  rfl

theorem exists_foldlM_of_allNamed
    (h : ∀ key entry, storedAt entries key = some entry → entry.AllNamed) :
    ∃ r, (Dictionary.empty.insertAll entries).entries.foldlM addStored empty = .ok r ∧
      r.Holds (storedAt entries) := by
  have hordered : ([] ++ (Dictionary.empty.insertAll entries).entries).Pairwise
      fun a b : String × StoredComponent => a.1 < b.1 :=
    (Dictionary.ordered_empty.insertAll entries).pairwise_entries
  have hnamed : ∀ added ∈ (Dictionary.empty.insertAll entries).entries, added.2.AllNamed :=
    fun added hadded => h added.1 added.2 (mem_entries_insertAll_iff.mp hadded)
  have hstored : ((Dictionary.empty.insertAll entries).entries.lookup ·) =
      storedAt entries := by
    funext key
    exact Dictionary.find?_insertAll_empty entries key
  rw [← hstored]
  exact exists_foldlM_addStored hordered hnamed holds_empty

theorem exists_foldlM_of_unnamed
    (h : ¬ ∀ key entry, storedAt entries key = some entry → entry.AllNamed) :
    ∃ key entry index, storedAt entries key = some entry ∧ entry.FirstUnnamed index ∧
      (∀ other, other < key → ∀ earlier, storedAt entries other = some earlier →
        earlier.AllNamed) ∧
      (Dictionary.empty.insertAll entries).entries.foldlM addStored empty =
        .error (.missingParameterName (Text.lowercase key) index) := by
  have hordered := (Dictionary.ordered_empty.insertAll entries).pairwise_entries
  have hunnamed : ¬ ∀ added ∈ (Dictionary.empty.insertAll entries).entries,
      added.2.AllNamed :=
    fun hall => h fun key entry hentry => hall (key, entry) (mem_entries_insertAll_iff.mpr hentry)
  obtain ⟨before, ⟨key, entry⟩, after, hsplit, hbefore, hentry⟩ := exists_first_not hunnamed
  obtain ⟨index, hindex⟩ := StoredComponent.exists_firstUnnamed hentry
  refine ⟨key, entry, index, ?_, hindex, ?_, ?_⟩
  · apply mem_entries_insertAll_iff.mp
    rw [hsplit]
    exact List.mem_append_right before List.mem_cons_self
  · -- An entry with a smaller key can only stand before this one.
    intro other hother earlier hearlier
    have hmem := mem_entries_insertAll_iff.mpr hearlier
    rw [hsplit] at hmem hordered
    rcases List.mem_append.mp hmem with hfound | hbehind
    · exact hbefore _ hfound
    · exfalso
      rcases List.mem_cons.mp hbehind with hsame | hafter
      · exact String.ne_of_lt hother (congrArg Prod.fst hsame)
      · have hkeys := List.pairwise_cons.mp (List.pairwise_append.mp hordered).2.1
        exact String.lt_asymm hother (hkeys.1 _ hafter)
  · rw [hsplit]
    exact foldlM_addStored_of_firstUnnamed hbefore hindex key after empty

/-- A stored registry in which every argument starts with a name is read as the registry
that holds its entries.  Otherwise the first argument without a name in the entry of the
smallest such key is reported.  Members of different keys may stand in any order. -/
theorem ofJson_of_entries (hread : Json.Tree.read? s = some (.object members))
    (hentries : members.mapM entry? = some entries) :
    ((∀ key entry, storedAt entries key = some entry → entry.AllNamed) →
      ∃ r, ofJson s = .ok r ∧ r.Holds (storedAt entries)) ∧
    ((¬ ∀ key entry, storedAt entries key = some entry → entry.AllNamed) →
      ∃ key entry index, storedAt entries key = some entry ∧ entry.FirstUnnamed index ∧
        (∀ other, other < key → ∀ earlier, storedAt entries other = some earlier →
          earlier.AllNamed) ∧
        ofJson s = .error (.missingParameterName (Text.lowercase key) index)) ∧
    ∀ other others, Json.Tree.read? other = some (.object others) →
      (∀ key, (others.filter fun member => member.1 = key) =
        members.filter fun member => member.1 = key) →
      ofJson other = ofJson s := by
  refine ⟨?_, ?_, ?_⟩
  · rw [ofJson_eq_foldlM hread hentries]
    exact exists_foldlM_of_allNamed
  · rw [ofJson_eq_foldlM hread hentries]
    exact exists_foldlM_of_unnamed
  · intro other others hother hsame
    rw [ofJson, ofJson, hread, hother, Option.bind_some, Option.bind_some,
      entries?_of_filter_eq hentries hsame]

end Loading

/-- Three keys of one name, of which one is written twice. -/
def sampleText : String :=
  "\x7b\"Tag\": \x7b\"html\": \"old\", \"arguments\": [[]]\x7d, " ++
    "\"tag\": \x7b\"html\": \"small\", \"arguments\": [[\"who\"]]\x7d, " ++
    "\"TAG\": \x7b\"html\": \"great\"\x7d, \"Tag\": \x7b\"html\": \"new\"\x7d\x7d"

def sampleMembers : List (Option String × Json.Tree) :=
  [(some "Tag", .object [(some "html", .string (some "old")),
      (some "arguments", .array [.array []])]),
    (some "tag", .object [(some "html", .string (some "small")),
      (some "arguments", .array [.array [.string (some "who")]])]),
    (some "TAG", .object [(some "html", .string (some "great"))]),
    (some "Tag", .object [(some "html", .string (some "new"))])]

def sampleEntries : List (String × StoredComponent) :=
  [("Tag", ⟨"", [[]], "old", "", none⟩), ("tag", ⟨"", [[.string "who"]], "small", "", none⟩),
    ("TAG", ⟨"", [], "great", "", none⟩), ("Tag", ⟨"", [], "new", "", none⟩)]

theorem read?_sampleText : Json.Tree.read? sampleText = some (.object sampleMembers) := by
  have hlexemes : Json.Lexeme.read sampleText.toList = some [.objectOpen,
      .string (some "Tag"), .colon, .objectOpen, .string (some "html"), .colon,
      .string (some "old"), .comma, .string (some "arguments"), .colon, .arrayOpen, .arrayOpen,
      .arrayClose, .arrayClose, .objectClose, .comma,
      .string (some "tag"), .colon, .objectOpen, .string (some "html"), .colon,
      .string (some "small"), .comma, .string (some "arguments"), .colon, .arrayOpen, .arrayOpen,
      .string (some "who"), .arrayClose, .arrayClose, .objectClose, .comma,
      .string (some "TAG"), .colon, .objectOpen, .string (some "html"), .colon,
      .string (some "great"), .objectClose, .comma,
      .string (some "Tag"), .colon, .objectOpen, .string (some "html"), .colon,
      .string (some "new"), .objectClose, .objectClose] := by
    decide +kernel
  rw [Json.Tree.read?, hlexemes]
  rfl

theorem storedAt_sampleEntries (key : String) :
    storedAt sampleEntries key =
      if key = "Tag" then some ⟨"", [], "new", "", none⟩
      else if key = "TAG" then some ⟨"", [], "great", "", none⟩
      else if key = "tag" then some ⟨"", [[.string "who"]], "small", "", none⟩
      else none := by
  have hreverse : sampleEntries.reverse = [("Tag", ⟨"", [], "new", "", none⟩),
      ("TAG", ⟨"", [], "great", "", none⟩), ("tag", ⟨"", [[.string "who"]], "small", "", none⟩),
      ("Tag", ⟨"", [[]], "old", "", none⟩)] := rfl
  rw [storedAt, hreverse]
  simp only [Dictionary.lookup_cons_eq_if, List.lookup_nil]
  split <;> rfl

/-- The key in small letters is the greatest of the three. -/
theorem ofJson_of_entries_sampleText :
    (Json.Tree.read? sampleText = some (.object sampleMembers) ∧
      sampleMembers.mapM entry? = some sampleEntries) ∧
    ∃ r c, ofJson sampleText = .ok r ∧ r.lookup "tag" = some c ∧ c.html = "small" ∧
      c.parameters = ["who"] := by
  have hentries : sampleMembers.mapM entry? = some sampleEntries := rfl
  have hlower : Text.lowercase "tag" = "tag" := by decide +kernel
  have hnamed : ∀ key entry, storedAt sampleEntries key = some entry → entry.AllNamed := by
    intro key entry hentry argument hargument
    rw [storedAt_sampleEntries] at hentry
    split at hentry
    · cases hentry
      cases hargument
    · split at hentry
      · cases hentry
        cases hargument
      · split at hentry <;> cases hentry
        exact ⟨"who", by rw [List.mem_singleton.mp hargument]; rfl, by decide⟩
  have hgreatest : ∀ other, (storedAt sampleEntries other).isSome = true →
      Text.lowercase other = Text.lowercase "tag" → other ≤ "tag" := by
    intro other hother _
    have hkeys : other = "Tag" ∨ other = "TAG" ∨ other = "tag" := by
      by_contra hnone
      rw [not_or, not_or] at hnone
      rw [storedAt_sampleEntries, if_neg hnone.1, if_neg hnone.2.1, if_neg hnone.2.2] at hother
      cases hother
    rcases hkeys with rfl | rfl | rfl <;> decide
  obtain ⟨r, hr, hholds⟩ := (ofJson_of_entries read?_sampleText hentries).1 hnamed
  obtain ⟨c, hlookup, hmeans⟩ := hholds.lookup_greatest "tag" _ rfl hgreatest
  rw [hlower] at hlookup
  refine ⟨⟨read?_sampleText, hentries⟩, r, c, hr, hlookup, hmeans.html, ?_⟩
  obtain ⟨_, _, hname, hnone, hparameters⟩ := List.forall₂_cons_left_iff.mp hmeans.parameters
  cases hnone
  cases hname.1
  exact hparameters

end Registry
end ComponentMarkup
