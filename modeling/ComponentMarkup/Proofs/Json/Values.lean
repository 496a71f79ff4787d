import ComponentMarkup.Dictionary
import ComponentMarkup.Json.Value
import ComponentMarkup.Proofs.Json.Spelling

/-!
# Values that are written out

A value with whole numbers, distinct keys and no more containers inside each other than
are read is written as a text that is read as that value.  Every value that is read from
plain numerals is one of these.
-/

namespace ComponentMarkup
namespace Json

/-- Whether all numbers of a tree are plain. -/
inductive Tree.PlainNumbers : Tree → Prop where
  | null : PlainNumbers .null
  | bool (value : Bool) : PlainNumbers (.bool value)
  | number {numeral : Numeral} (plain : numeral.IsPlain) : PlainNumbers (.number numeral)
  | string (content : Option String) : PlainNumbers (.string content)
  | array {items : List Tree} (each : ∀ t ∈ items, PlainNumbers t) : PlainNumbers (.array items)
  | object {members : List (Option String × Tree)} (each : ∀ m ∈ members, PlainNumbers m.2) :
      PlainNumbers (.object members)

namespace Value

/-- Whether a value has whole numbers and distinct keys, and containers nested at most
`room` deep. -/
inductive Fits : Nat → Value → Prop where
  | null (room : Nat) : Fits room .null
  | bool (room : Nat) (value : Bool) : Fits room (.bool value)
  | number (room : Nat) {number : Number} (whole : number.IsWhole) : Fits room (.number number)
  | string (room : Nat) (value : String) : Fits room (.string value)
  | array {room : Nat} {items : List Value} (each : ∀ v ∈ items, Fits room v) :
      Fits (room + 1) (.array items)
  | object {room : Nat} {members : List (String × Value)}
      (distinct : (members.map Prod.fst).Nodup) (each : ∀ m ∈ members, Fits room m.2) :
      Fits (room + 1) (.object members)

theorem Fits.distinct_keys {room : Nat} {members : List (String × Value)}
    (h : Fits room (.object members)) : (members.map Prod.fst).Nodup := by
  cases h with
  | object distinct each => exact distinct

/-! ## Members that are set -/

section Members

variable {key name : String} {value : Value} {members : List (String × Value)}

theorem setMember_of_notMem (h : key ∉ members.map Prod.fst) (value : Value) :
    setMember key value members = members ++ [(key, value)] := by
  induction members with
  | nil => rfl
  | cons member rest ih =>
      rw [List.map_cons, List.mem_cons, not_or] at h
      rw [setMember, if_neg (Ne.symm h.1), ih h.2]
      rfl

/-- Where keys are distinct, only the member with the key changes. -/
theorem setMember_of_mem (h : key ∈ members.map Prod.fst) (hdistinct : (members.map Prod.fst).Nodup)
    (value : Value) :
    setMember key value members =
      members.map fun member => if member.1 = key then (member.1, value) else member := by
  induction members with
  | nil => cases h
  | cons member rest ih =>
      rw [List.map_cons, List.nodup_cons] at hdistinct
      rw [setMember, List.map_cons]
      by_cases hkey : member.1 = key
      · have hrest : ∀ other ∈ rest, ¬ other.1 = key := by
          intro other hother hsame
          apply hdistinct.1
          rw [hkey, ← hsame]
          exact List.mem_map_of_mem hother
        have hkept : (rest.map fun other => if other.1 = key then (other.1, value) else other) =
            rest.map id := List.map_congr_left fun other hother => if_neg (hrest other hother)
        rw [if_pos hkey, if_pos hkey, hkept, List.map_id, hkey]
      · rw [List.map_cons, List.mem_cons] at h
        have hrest : key ∈ rest.map Prod.fst := h.resolve_left (Ne.symm hkey)
        rw [if_neg hkey, if_neg hkey, ih hrest hdistinct.2]

theorem lookup_setMember (key name : String) (value : Value) (members : List (String × Value)) :
    (setMember key value members).lookup name =
      if name = key then some value else members.lookup name := by
  induction members with
  | nil => exact Dictionary.lookup_cons_eq_if name key value []
  | cons member rest ih =>
      rcases member with ⟨other, old⟩
      rw [setMember]
      by_cases hother : other = key
      · rw [if_pos hother, hother, Dictionary.lookup_cons_eq_if, Dictionary.lookup_cons_eq_if]
        by_cases hname : name = key
        · rw [if_pos hname, if_pos hname]
        · rw [if_neg hname, if_neg hname, if_neg hname]
      · rw [if_neg hother, Dictionary.lookup_cons_eq_if, Dictionary.lookup_cons_eq_if, ih]
        by_cases hname : name = other
        · have hkey : ¬ name = key := hname ▸ hother
          rw [if_pos hname, if_pos hname, if_neg hkey]
        · rw [if_neg hname, if_neg hname]

theorem mem_setMember {member : String × Value} (h : member ∈ setMember key value members) :
    member = (key, value) ∨ member ∈ members := by
  induction members with
  | nil => exact .inl (List.mem_singleton.mp h)
  | cons first rest ih =>
      rw [setMember] at h
      split at h
      · rcases List.mem_cons.mp h with rfl | hrest
        · exact .inl rfl
        · exact .inr (List.mem_cons_of_mem _ hrest)
      · rcases List.mem_cons.mp h with rfl | hrest
        · exact .inr List.mem_cons_self
        · exact (ih hrest).imp_right (List.mem_cons_of_mem _)

theorem nodup_setMember (h : (members.map Prod.fst).Nodup) (key : String) (value : Value) :
    ((setMember key value members).map Prod.fst).Nodup := by
  by_cases hmem : key ∈ members.map Prod.fst
  · rw [setMember_of_mem hmem h, List.map_map]
    have hkeys : (Prod.fst ∘ fun member : String × Value =>
        if member.1 = key then (member.1, value) else member) = Prod.fst := by
      funext member
      dsimp only [Function.comp]
      split <;> rfl
    rw [hkeys]
    exact h
  · rw [setMember_of_notMem hmem, List.map_append]
    have hkeys := h.concat hmem
    rw [List.concat_eq_append] at hkeys
    exact hkeys

theorem Fits.setMember_string {room : Nat} (h : Fits room (.object members)) (key text : String) :
    Fits room (.object (setMember key (.string text) members)) := by
  cases h with
  | object distinct each =>
      apply Fits.object (nodup_setMember distinct key _)
      intro member hmember
      rcases mem_setMember hmember with rfl | hbefore
      · exact .string _ text
      · exact each member hbefore

end Members

/-- Read a member behind those already read. -/
def addMember (room : Nat) (soFar : List (String × Value)) (member : Option String × Tree) :
    Option (List (String × Value)) := do
  let key ← member.1
  let value ← ofTree? room member.2
  return setMember key value soFar

theorem ofTree?_object (room : Nat) (members : List (Option String × Tree)) :
    ofTree? (room + 1) (.object members) = (members.foldlM (addMember room) []).map .object := by
  rw [ofTree?]
  rfl

/-- Only the tree of a text means that text. -/
theorem ofTree?_eq_string {room : Nat} {t : Tree} {text : String} :
    ofTree? room t = some (.string text) ↔ t = .string (some text) := by
  constructor
  · intro h
    cases t with
    | string content =>
        rw [ofTree?] at h
        rcases Option.map_eq_some_iff.mp h with ⟨found, rfl, hsame⟩
        cases hsame
        rfl
    | object ms => cases room <;> simp [ofTree?] at h
    | array items => cases room <;> simp [ofTree?] at h
    | _ => simp [ofTree?] at h
  · intro h
    rw [h, ofTree?]
    rfl

/-- Only the tree of an object means an object. -/
theorem ofTree?_eq_object {room : Nat} {t : Tree} {members : List (String × Value)} :
    ofTree? (room + 1) t = some (.object members) ↔
      ∃ ms, t = .object ms ∧ ms.foldlM (addMember room) [] = some members := by
  constructor
  · intro h
    cases t with
    | object ms =>
        rw [ofTree?_object] at h
        rcases Option.map_eq_some_iff.mp h with ⟨found, hfound, hsame⟩
        cases hsame
        exact ⟨ms, rfl, hfound⟩
    | _ => simp [ofTree?] at h
  · intro h
    rcases h with ⟨ms, rfl, hmembers⟩
    rw [ofTree?_object, hmembers]
    rfl

theorem addMember_eq_some {room : Nat} {soFar members : List (String × Value)}
    {member : Option String × Tree} :
    addMember room soFar member = some members ↔
      ∃ key value, member.1 = some key ∧ ofTree? room member.2 = some value ∧
        setMember key value soFar = members := by
  unfold addMember
  simp [Option.bind_eq_some_iff]

/-! ## Values that are read -/

theorem exists_of_mem_mapM {α β : Type} {f : α → Option β} {as : List α} {bs : List β}
    (h : as.mapM f = some bs) {b : β} (hb : b ∈ bs) : ∃ a ∈ as, f a = some b := by
  induction as generalizing bs with
  | nil =>
      cases h
      cases hb
  | cons a as ih =>
      rw [List.mapM_cons] at h
      rcases Option.bind_eq_some_iff.mp h with ⟨first, hfirst, hrest⟩
      rcases Option.bind_eq_some_iff.mp hrest with ⟨others, hothers, hresult⟩
      cases hresult
      rcases List.mem_cons.mp hb with rfl | hmem
      · exact ⟨a, List.mem_cons_self, hfirst⟩
      · rcases ih hothers hmem with ⟨a, ha, hmeans⟩
        exact ⟨a, List.mem_cons_of_mem _ ha, hmeans⟩

/-- What is true of the members so far and kept by a member more is true of all. -/
theorem fits_of_foldlM {room : Nat} {ms : List (Option String × Tree)}
    {soFar members : List (String × Value)}
    (heach : ∀ m ∈ ms, ∀ v, ofTree? room m.2 = some v → Fits room v)
    (hdistinct : (soFar.map Prod.fst).Nodup) (hsoFar : ∀ m ∈ soFar, Fits room m.2)
    (h : ms.foldlM (addMember room) soFar = some members) :
    (members.map Prod.fst).Nodup ∧ ∀ m ∈ members, Fits room m.2 := by
  induction ms generalizing soFar with
  | nil =>
      cases h
      exact ⟨hdistinct, hsoFar⟩
  | cons m ms ih =>
      rw [List.foldlM_cons] at h
      rcases Option.bind_eq_some_iff.mp h with ⟨next, hadd, hrest⟩
      rcases addMember_eq_some.mp hadd with ⟨key, value, _, hvalue, rfl⟩
      have hnext : ∀ member ∈ setMember key value soFar, Fits room member.2 := by
        intro member hmember
        rcases mem_setMember hmember with rfl | hbefore
        · exact heach m List.mem_cons_self value hvalue
        · exact hsoFar member hbefore
      exact ih (fun other hother => heach other (List.mem_cons_of_mem m hother))
        (nodup_setMember hdistinct key value) hnext hrest

/-- Every value that is read from plain numerals fits. -/
theorem fits_of_ofTree? {room : Nat} {t : Tree} {v : Value} (hplain : t.PlainNumbers)
    (h : ofTree? room t = some v) : Fits room v := by
  -- The numbers stand at the leaves, so the induction is on the tree and not on the room.
  induction hplain generalizing room v with
  | null =>
      rw [ofTree?] at h
      cases h
      exact .null room
  | bool value =>
      rw [ofTree?] at h
      cases h
      exact .bool room value
  | number plain =>
      rw [ofTree?] at h
      rcases Option.map_eq_some_iff.mp h with ⟨number, hnumber, rfl⟩
      exact .number room (Number.isWhole_of_ofNumeral? plain hnumber)
  | string content =>
      rw [ofTree?] at h
      rcases Option.map_eq_some_iff.mp h with ⟨value, _, rfl⟩
      exact .string room value
  | array each ih =>
      cases room with
      | zero => cases h
      | succ room =>
          rcases Option.map_eq_some_iff.mp h with ⟨items, hitems, rfl⟩
          apply Fits.array
          intro v hv
          rcases exists_of_mem_mapM hitems hv with ⟨t, ht, hmeans⟩
          exact ih t ht hmeans
  | object each ih =>
      cases room with
      | zero => cases h
      | succ room =>
          rw [ofTree?_object] at h
          rcases Option.map_eq_some_iff.mp h with ⟨members, hmembers, rfl⟩
          have hempty : (([] : List (String × Value)).map Prod.fst).Nodup := List.nodup_nil
          rcases fits_of_foldlM (fun m hm v hv => ih m hm hv) hempty (List.forall_mem_nil _)
            hmembers with ⟨hdistinct, hfits⟩
          exact .object hdistinct hfits

/-- A key has the value of the last member with it. -/
theorem lookup_of_foldlM {room : Nat} {ms : List (Option String × Tree)}
    {soFar members : List (String × Value)} (h : ms.foldlM (addMember room) soFar = some members)
    (name : String) :
    members.lookup name =
      match ms.reverse.lookup (some name) with
      | some t => ofTree? room t
      | none => soFar.lookup name := by
  induction ms generalizing soFar with
  | nil =>
      cases h
      rfl
  | cons m ms ih =>
      rw [List.foldlM_cons] at h
      rcases Option.bind_eq_some_iff.mp h with ⟨next, hadd, hrest⟩
      rcases addMember_eq_some.mp hadd with ⟨key, value, hkey, hvalue, rfl⟩
      rcases m with ⟨_, t⟩
      cases hkey
      rw [ih hrest, List.reverse_cons, List.lookup_append]
      cases ms.reverse.lookup (some name) with
      | some t => rfl
      | none =>
          rw [Option.none_or, List.lookup_cons]
          dsimp only
          rw [lookup_setMember]
          by_cases hname : name = key
          · rw [if_pos hname, hname, beq_self_eq_true]
            exact hvalue.symm
          · have hother : (some name == some key) = false := by
              simpa using hname
            rw [if_neg hname, hother]
            rfl

/-- An object is read of the members that are written. -/
theorem read?_eq_object {s : String} {members : List (String × Value)} :
    read? s = some (.object members) ↔
      ∃ ms, Tree.read? s = some (.object ms) ∧ ms.foldlM (addMember 126) [] = some members := by
  rw [read?, Option.bind_eq_some_iff]
  constructor
  · intro h
    rcases h with ⟨t, hread, hmeans⟩
    rcases ofTree?_eq_object.mp hmeans with ⟨ms, rfl, hmembers⟩
    exact ⟨ms, hread, hmembers⟩
  · intro h
    rcases h with ⟨ms, hread, hmembers⟩
    exact ⟨.object ms, hread, ofTree?_eq_object.mpr ⟨ms, rfl, hmembers⟩⟩

/-! ## Values that are written -/

/-- Whether a value is written as the text of a tree that means the value. -/
def Written (room : Nat) (v : Value) : Prop :=
  ∃ cs t, (∀ out, (renderOnto out v).toList = out.toList ++ cs) ∧ Spells cs t ∧
    ofTree? room t = some v

theorem written_of_text {room : Nat} {v : Value} {t : Tree} (text : String)
    (hrender : ∀ out, renderOnto out v = out ++ text) (hspells : Spells text.toList t)
    (hmeans : ofTree? room t = some v) : Written room v := by
  have hchars : ∀ out, (renderOnto out v).toList = out.toList ++ text.toList := by
    intro out
    rw [hrender, String.toList_append]
  exact ⟨text.toList, t, hchars, hspells, hmeans⟩

theorem renderItemsOnto_cons (out : String) (item other : Value) (rest : List Value) :
    renderItemsOnto out (item :: other :: rest) =
      renderItemsOnto (renderOnto out item ++ ",") (other :: rest) := by
  rw [renderItemsOnto]
  exact List.cons_ne_nil other rest

theorem renderMembersOnto_cons (out key : String) (value : Value) (other : String × Value)
    (rest : List (String × Value)) :
    renderMembersOnto out ((key, value) :: other :: rest) =
      renderMembersOnto (renderOnto (out ++ quoted key ++ ":") value ++ ",") (other :: rest) := by
  rw [renderMembersOnto]
  exact List.cons_ne_nil other rest

theorem written_items {room : Nat} {items : List Value} (hne : items ≠ [])
    (h : ∀ v ∈ items, Written room v) :
    ∃ cs ts, (∀ out, (renderItemsOnto out items).toList = out.toList ++ cs) ∧
      SpellsItems cs ts ∧ ts.mapM (ofTree? room) = some items := by
  induction items with
  | nil => exact absurd rfl hne
  | cons item rest ih =>
      rcases List.forall_mem_cons.mp h with ⟨⟨cs, t, hwritten, hspells, hmeans⟩, hothers⟩
      cases rest with
      | nil =>
          have hrender : ∀ out, (renderItemsOnto out [item]).toList = out.toList ++ cs := by
            intro out
            rw [renderItemsOnto]
            exact hwritten out
          have hitems : [t].mapM (ofTree? room) = some [item] := by
            rw [List.mapM_cons, hmeans]
            rfl
          exact ⟨cs, [t], hrender, spellsItems_singleton hspells, hitems⟩
      | cons other rest =>
          rcases ih (List.cons_ne_nil other rest) hothers with
            ⟨ds, ts, hwrittenRest, hspellsRest, hmeansRest⟩
          have hrender : ∀ out, (renderItemsOnto out (item :: other :: rest)).toList =
              out.toList ++ (cs ++ ',' :: ds) := by
            intro out
            rw [renderItemsOnto_cons, hwrittenRest, String.toList_append, hwritten,
              List.append_assoc, List.append_assoc]
            rfl
          have hitems : (t :: ts).mapM (ofTree? room) = some (item :: other :: rest) := by
            rw [List.mapM_cons, hmeans, hmeansRest]
            rfl
          exact ⟨_, t :: ts, hrender, spellsItems_cons hspells hspellsRest, hitems⟩

/-- Whether a member that is written means a member of an object. -/
def MemberMeans (room : Nat) (m : Option String × Tree) (member : String × Value) : Prop :=
  m.1 = some member.1 ∧ ofTree? room m.2 = some member.2

/-- Members whose keys are new are put behind those before them. -/
theorem foldlM_addMember {room : Nat} {ms : List (Option String × Tree)}
    {members soFar : List (String × Value)}
    (hmeans : List.Forall₂ (MemberMeans room) ms members)
    (hdistinct : ((soFar ++ members).map Prod.fst).Nodup) :
    ms.foldlM (addMember room) soFar = some (soFar ++ members) := by
  induction hmeans generalizing soFar with
  | nil =>
      rw [List.append_nil]
      rfl
  | @cons m member ms members hfirst _ ih =>
      have hnew : member.1 ∉ soFar.map Prod.fst := by
        intro hmem
        rw [List.map_append, List.map_cons] at hdistinct
        exact List.disjoint_of_nodup_append hdistinct hmem List.mem_cons_self
      have hadd : addMember room soFar m = some (soFar ++ [member]) :=
        addMember_eq_some.mpr ⟨_, _, hfirst.1, hfirst.2, setMember_of_notMem hnew member.2⟩
      rw [List.append_cons] at hdistinct ⊢
      rw [List.foldlM_cons, hadd]
      exact ih hdistinct

theorem written_members {room : Nat} {members : List (String × Value)} (hne : members ≠ [])
    (h : ∀ m ∈ members, Written room m.2) :
    ∃ cs ms, (∀ out, (renderMembersOnto out members).toList = out.toList ++ cs) ∧
      SpellsMembers cs ms ∧ List.Forall₂ (MemberMeans room) ms members := by
  induction members with
  | nil => exact absurd rfl hne
  | cons member rest ih =>
      rcases member with ⟨key, value⟩
      rcases List.forall_mem_cons.mp h with ⟨⟨cs, t, hwritten, hspells, hmeans⟩, hothers⟩
      have hfirst : ∀ out, (renderOnto (out ++ quoted key ++ ":") value).toList =
          out.toList ++ (quotedChars key.toList ++ ':' :: cs) := by
        intro out
        rw [hwritten]
        simp [quoted]
      cases rest with
      | nil =>
          have hrender : ∀ out, (renderMembersOnto out [(key, value)]).toList =
              out.toList ++ (quotedChars key.toList ++ ':' :: cs) := by
            intro out
            rw [renderMembersOnto]
            exact hfirst out
          exact ⟨_, _, hrender, spellsMembers_singleton key hspells, .cons ⟨rfl, hmeans⟩ .nil⟩
      | cons other rest =>
          rcases ih (List.cons_ne_nil other rest) hothers with
            ⟨ds, ms, hwrittenRest, hspellsRest, hmeansRest⟩
          have hrender : ∀ out, (renderMembersOnto out ((key, value) :: other :: rest)).toList =
              out.toList ++ (quotedChars key.toList ++ ':' :: cs ++ ',' :: ds) := by
            intro out
            rw [renderMembersOnto_cons, hwrittenRest, String.toList_append, hfirst,
              List.append_assoc, List.append_assoc]
            rfl
          exact ⟨_, _, hrender, spellsMembers_cons key hspells hspellsRest,
            .cons ⟨rfl, hmeans⟩ hmeansRest⟩

theorem written_of_fits {room : Nat} {v : Value} (h : Fits room v) : Written room v := by
  induction h with
  | null room =>
      exact written_of_text "null" (fun out => by rw [renderOnto]) spells_null (by rw [ofTree?])
  | bool room value =>
      cases value with
      | true =>
          exact written_of_text "true" (fun out => by rw [renderOnto]) spells_true
            (by rw [ofTree?])
      | false =>
          exact written_of_text "false" (fun out => by rw [renderOnto]) spells_false
            (by rw [ofTree?])
  | @number room number whole =>
      have hmeans : ofTree? room (.number number.numeral) = some (.number number) := by
        rw [ofTree?, Number.ofNumeral?_numeral whole]
        rfl
      exact written_of_text number.render (fun out => by rw [renderOnto]) (spells_number whole)
        hmeans
  | string room value =>
      exact written_of_text (quoted value) (fun out => by rw [renderOnto]) (spells_string value)
        (ofTree?_eq_string.mpr rfl)
  | @array room items each ih =>
      cases items with
      | nil =>
          have hrender : ∀ out, renderOnto out (.array []) = out ++ "[]" := by
            intro out
            rw [renderOnto, renderItemsOnto, String.append_assoc]
            rfl
          exact written_of_text "[]" hrender spells_emptyArray rfl
      | cons item rest =>
          rcases written_items (List.cons_ne_nil item rest) ih with
            ⟨cs, ts, hwritten, hspells, hmeans⟩
          have hrender : ∀ out, (renderOnto out (.array (item :: rest))).toList =
              out.toList ++ '[' :: (cs ++ [']']) := by
            intro out
            rw [renderOnto, String.toList_append, hwritten]
            simp
          have harray : ofTree? (room + 1) (.array ts) = some (.array (item :: rest)) := by
            rw [ofTree?, hmeans]
            rfl
          exact ⟨_, _, hrender, spells_array hspells, harray⟩
  | @object room members distinct each ih =>
      cases members with
      | nil =>
          have hrender : ∀ out, renderOnto out (.object []) = out ++ "\x7b\x7d" := by
            intro out
            rw [renderOnto, renderMembersOnto, String.append_assoc]
            rfl
          exact written_of_text "\x7b\x7d" hrender spells_emptyObject rfl
      | cons member rest =>
          rcases written_members (List.cons_ne_nil member rest) ih with
            ⟨cs, ms, hwritten, hspells, hmeans⟩
          have hrender : ∀ out, (renderOnto out (.object (member :: rest))).toList =
              out.toList ++ '\x7b' :: (cs ++ ['\x7d']) := by
            intro out
            rw [renderOnto, String.toList_append, hwritten]
            simp
          have hobject : ofTree? (room + 1) (.object ms) = some (.object (member :: rest)) :=
            ofTree?_eq_object.mpr ⟨ms, rfl, foldlM_addMember hmeans distinct⟩
          exact ⟨_, _, hrender, spells_object hspells, hobject⟩

/-- A value that fits is written as a text that is read as that value. -/
theorem read?_render {v : Value} (h : Fits nestingLimit v) : read? v.render = some v := by
  rcases written_of_fits h with ⟨cs, t, hwritten, hspells, hmeans⟩
  have htext : v.render = String.ofList cs := by
    apply String.toList_inj.mp
    exact (hwritten "").trans String.toList_ofList.symm
  rw [read?, htext, read?_of_spells hspells]
  exact hmeans

end Value
end Json
end ComponentMarkup
