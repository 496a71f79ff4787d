import ComponentMarkup.Json.Tree
import ComponentMarkup.Proofs.Json.Numbers
import ComponentMarkup.Proofs.Json.Quoted

/-!
# Trees that are written out

The text of a tree is put together from the texts of its parts.  What each part is read
as does not depend on what stands before it, nor on what stands behind it as long as
that does not go on with a number.
-/

namespace ComponentMarkup
namespace Json

/-! ## Rows of lexemes -/

/-- Whether some characters are read as some lexemes. -/
def Reads (cs : List Char) (ls : List Lexeme) : Prop :=
  ∀ seen rest, Number.EndsBefore rest →
    Lexeme.readOnto seen (cs ++ rest) = Lexeme.readOnto (ls.reverse ++ seen) rest

theorem readOnto_of_scan? {c : Char} {cs rest : List Char} {l : Lexeme}
    (hblank : Lexeme.isBlank c = false) (h : Lexeme.scan? c cs = some (l, rest))
    (seen : List Lexeme) :
    Lexeme.readOnto seen (c :: cs) = Lexeme.readOnto (l :: seen) rest := by
  rw [Lexeme.readOnto, hblank, if_neg Bool.false_ne_true]
  split
  · rename_i hnone
    rw [h] at hnone
    cases hnone
  · rename_i hsome
    rw [h] at hsome
    cases hsome
    rfl

namespace Reads

variable {cs ds : List Char} {ls ms : List Lexeme} {l : Lexeme} {c : Char}

theorem one (hblank : Lexeme.isBlank c = false)
    (h : ∀ rest, Number.EndsBefore rest → Lexeme.scan? c (cs ++ rest) = some (l, rest)) :
    Reads (c :: cs) [l] := by
  intro seen rest hrest
  exact readOnto_of_scan? hblank (h rest hrest) seen

theorem append (h : Reads cs ls) (hends : Number.EndsBefore ds) (hne : ds ≠ [])
    (hbehind : Reads ds ms) : Reads (cs ++ ds) (ls ++ ms) := by
  intro seen rest hrest
  have hboth : Number.EndsBefore (ds ++ rest) := by
    intro d hd
    rw [List.head?_append_of_ne_nil _ hne] at hd
    exact hends d hd
  rw [List.append_assoc, h seen _ hboth, hbehind _ rest hrest, List.reverse_append,
    List.append_assoc]

/-- A sign in front of other lexemes. -/
theorem sign (hblank : Lexeme.isBlank c = false)
    (hscan : ∀ rest, Lexeme.scan? c rest = some (l, rest)) (h : Reads cs ls) :
    Reads (c :: cs) (l :: ls) := by
  intro seen rest hrest
  rw [List.cons_append, readOnto_of_scan? hblank (hscan (cs ++ rest)), h _ rest hrest,
    List.reverse_cons, List.append_assoc]
  rfl

theorem quoted (s : String) : Reads (quotedChars s.toList) [.string (some s)] := by
  have hscan : ∀ rest, Lexeme.scan? '"' (s.toList.flatMap quotedChar ++ ['"'] ++ rest) =
      some (.string (some s), rest) := by
    intro rest
    rw [List.append_assoc, Lexeme.scan?]
    dsimp only [List.singleton_append]
    rw [scanString_quotedChars]
    simp
  exact one rfl fun rest _ => hscan rest

end Reads

/-! ## Lexemes that build a tree -/

namespace Tree.State

/-- The places at which a value can come next, and the containers that it is put in. -/
inductive Awaits : State → List Container → Prop where
  | value (containers : List Container) : Awaits (.beforeValue containers) containers
  | firstItem (containers : List Container) :
      Awaits (.beforeFirstItem containers) (.array [] :: containers)

/-- The places at which a key can come next, with the members before it. -/
inductive AwaitsKey : State → List (Option String × Tree) → List Container → Prop where
  | firstKey (containers : List Container) :
      AwaitsKey (.beforeFirstKey containers) [] containers
  | key (members : List (Option String × Tree)) (containers : List Container) :
      AwaitsKey (.beforeKey members containers) members containers

theorem Awaits.step_eq {s : State} {containers : List Container} (h : s.Awaits containers)
    {l : Lexeme} (hclose : l ≠ .arrayClose) : s.step l = beginValue containers l := by
  cases h with
  | value => rfl
  | firstItem containers =>
      cases l <;> first | rfl | exact absurd rfl hclose

theorem AwaitsKey.step_eq {s : State} {members : List (Option String × Tree)}
    {containers : List Container} (h : s.AwaitsKey members containers) (key : Option String) :
    s.step (.string key) = some (.beforeColon members key containers) := by
  cases h <;> rfl

end Tree.State

/-- Whether some characters are the text of a tree. -/
def Spells (cs : List Char) (t : Tree) : Prop :=
  ∃ ls, Reads cs ls ∧ ∀ s containers, Tree.State.Awaits s containers →
    ls.foldlM Tree.State.step s = some (.afterValue t containers)

/-- Whether some characters are the texts of trees with commas between them. -/
def SpellsItems (cs : List Char) (ts : List Tree) : Prop :=
  ∃ ls, Reads cs ls ∧ ∀ s seen outer, Tree.State.Awaits s (.array seen :: outer) →
    (ls ++ [Lexeme.arrayClose]).foldlM Tree.State.step s =
      some (.afterValue (.array (seen.reverse ++ ts)) outer)

/-- Whether some characters are the texts of members with commas between them. -/
def SpellsMembers (cs : List Char) (members : List (Option String × Tree)) : Prop :=
  ∃ ls, Reads cs ls ∧ ∀ s seen outer, Tree.State.AwaitsKey s seen outer →
    (ls ++ [Lexeme.objectClose]).foldlM Tree.State.step s =
      some (.afterValue (.object (seen.reverse ++ members)) outer)

/-! ## Trees without parts -/

theorem spells_of_lexeme {cs : List Char} {l : Lexeme} {t : Tree} (h : Reads cs [l])
    (hclose : l ≠ .arrayClose)
    (hbegin : ∀ containers, Tree.State.beginValue containers l = some (.afterValue t containers)) :
    Spells cs t := by
  refine ⟨[l], h, ?_⟩
  intro s containers hs
  rw [List.foldlM_cons, hs.step_eq hclose, hbegin]
  rfl

theorem spells_null : Spells "null".toList .null :=
  spells_of_lexeme (.one rfl fun _ _ => rfl) Lexeme.noConfusion fun _ => rfl

theorem spells_true : Spells "true".toList (.bool true) :=
  spells_of_lexeme (.one rfl fun _ _ => rfl) Lexeme.noConfusion fun _ => rfl

theorem spells_false : Spells "false".toList (.bool false) :=
  spells_of_lexeme (.one rfl fun _ _ => rfl) Lexeme.noConfusion fun _ => rfl

theorem spells_number {number : Number} (h : number.IsWhole) :
    Spells number.render.toList (.number number.numeral) := by
  rcases Number.scan?_render h with ⟨c, cs, hrender, hblank, hscan⟩
  rw [hrender]
  exact spells_of_lexeme (.one hblank hscan) Lexeme.noConfusion fun _ => rfl

theorem spells_string (s : String) : Spells (quoted s).toList (.string (some s)) := by
  rw [quoted, String.toList_ofList]
  exact spells_of_lexeme (.quoted s) Lexeme.noConfusion fun _ => rfl

/-! ## Trees with parts -/

section Parts

variable {cs ds : List Char} {t : Tree}

theorem spellsItems_singleton (h : Spells cs t) : SpellsItems cs [t] := by
  rcases h with ⟨ls, hreads, hbuilds⟩
  refine ⟨ls, hreads, ?_⟩
  intro s seen outer hs
  rw [List.foldlM_append, hbuilds s _ hs, ← List.reverse_cons]
  rfl

theorem spellsItems_cons {ts : List Tree} (h : Spells cs t) (hrest : SpellsItems ds ts) :
    SpellsItems (cs ++ ',' :: ds) (t :: ts) := by
  rcases h with ⟨ls, hreads, hbuilds⟩
  rcases hrest with ⟨ms, hreadsRest, hbuildsRest⟩
  have hcomma : Reads (',' :: ds) (.comma :: ms) := .sign rfl (fun _ => rfl) hreadsRest
  refine ⟨ls ++ .comma :: ms,
    hreads.append (Number.endsBefore_cons (by decide) ds) (List.cons_ne_nil _ _) hcomma, ?_⟩
  intro s seen outer hs
  have hrest := hbuildsRest (.beforeValue (.array (t :: seen) :: outer)) _ _ (.value _)
  rw [List.append_assoc, List.foldlM_append, hbuilds s _ hs]
  rw [List.reverse_cons, List.append_assoc] at hrest
  exact hrest

theorem spells_array {ts : List Tree} (h : SpellsItems cs ts) :
    Spells ('[' :: (cs ++ [']'])) (.array ts) := by
  rcases h with ⟨ls, hreads, hbuilds⟩
  have hclose : Reads [']'] [.arrayClose] := .one rfl fun _ _ => rfl
  refine ⟨.arrayOpen :: (ls ++ [.arrayClose]), .sign rfl (fun _ => rfl)
    (hreads.append (Number.endsBefore_cons (by decide) []) (List.cons_ne_nil _ _) hclose), ?_⟩
  intro s containers hs
  rw [List.foldlM_cons, hs.step_eq Lexeme.noConfusion]
  exact hbuilds (.beforeFirstItem containers) [] containers (.firstItem _)

theorem spells_emptyArray : Spells ['[', ']'] (.array []) := by
  have hclose : Reads [']'] [.arrayClose] := .one rfl fun _ _ => rfl
  refine ⟨[.arrayOpen, .arrayClose], .sign rfl (fun _ => rfl) hclose, ?_⟩
  intro s containers hs
  rw [List.foldlM_cons, hs.step_eq Lexeme.noConfusion]
  rfl

/-- A key, a colon and a value. -/
theorem reads_member {ls : List Lexeme} (key : String) (h : Reads cs ls) :
    Reads (quotedChars key.toList ++ ':' :: cs) (.string (some key) :: .colon :: ls) := by
  have hcolon : Reads (':' :: cs) (.colon :: ls) := .sign rfl (fun _ => rfl) h
  exact (Reads.quoted key).append (Number.endsBefore_cons (by decide) cs) (List.cons_ne_nil _ _)
    hcolon

theorem foldlM_member {ls : List Lexeme}
    (hbuilds : ∀ s containers, Tree.State.Awaits s containers →
      ls.foldlM Tree.State.step s = some (.afterValue t containers))
    {s : Tree.State} {seen : List (Option String × Tree)} {outer : List Tree.Container}
    (hs : s.AwaitsKey seen outer) (key : String) (rest : List Lexeme) :
    (.string (some key) :: .colon :: (ls ++ rest)).foldlM Tree.State.step s =
      rest.foldlM Tree.State.step (.afterValue t (.object seen (some key) :: outer)) := by
  have hcolon : (Tree.State.beforeColon seen (some key) outer).step .colon =
      some (.beforeValue (.object seen (some key) :: outer)) := rfl
  simp only [List.foldlM_cons, List.foldlM_append, Option.bind_eq_bind, Option.bind_some,
    hs.step_eq (some key), hcolon, hbuilds _ _ (.value _)]

theorem spellsMembers_singleton (key : String) (h : Spells cs t) :
    SpellsMembers (quotedChars key.toList ++ ':' :: cs) [(some key, t)] := by
  rcases h with ⟨ls, hreads, hbuilds⟩
  refine ⟨_, reads_member key hreads, ?_⟩
  intro s seen outer hs
  rw [List.cons_append, List.cons_append, foldlM_member hbuilds hs key, ← List.reverse_cons]
  rfl

theorem spellsMembers_cons {members : List (Option String × Tree)} (key : String)
    (h : Spells cs t) (hrest : SpellsMembers ds members) :
    SpellsMembers (quotedChars key.toList ++ ':' :: cs ++ ',' :: ds)
      ((some key, t) :: members) := by
  rcases h with ⟨ls, hreads, hbuilds⟩
  rcases hrest with ⟨ms, hreadsRest, hbuildsRest⟩
  have hcomma : Reads (',' :: ds) (.comma :: ms) := .sign rfl (fun _ => rfl) hreadsRest
  refine ⟨_, (reads_member key hreads).append (Number.endsBefore_cons (by decide) ds)
    (List.cons_ne_nil _ _) hcomma, ?_⟩
  intro s seen outer hs
  have hrest := hbuildsRest (.beforeKey ((some key, t) :: seen) outer) _ _ (.key _ _)
  rw [List.reverse_cons, List.append_assoc] at hrest
  rw [List.cons_append, List.cons_append, List.cons_append, List.cons_append, List.append_assoc,
    foldlM_member hbuilds hs key]
  exact hrest

theorem spells_object {members : List (Option String × Tree)} (h : SpellsMembers cs members) :
    Spells ('\x7b' :: (cs ++ ['\x7d'])) (.object members) := by
  rcases h with ⟨ls, hreads, hbuilds⟩
  have hclose : Reads ['\x7d'] [.objectClose] := .one rfl fun _ _ => rfl
  refine ⟨.objectOpen :: (ls ++ [.objectClose]), .sign rfl (fun _ => rfl)
    (hreads.append (Number.endsBefore_cons (by decide) []) (List.cons_ne_nil _ _) hclose), ?_⟩
  intro s containers hs
  rw [List.foldlM_cons, hs.step_eq Lexeme.noConfusion]
  exact hbuilds (.beforeFirstKey containers) [] containers (.firstKey _)

theorem spells_emptyObject : Spells ['\x7b', '\x7d'] (.object []) := by
  have hclose : Reads ['\x7d'] [.objectClose] := .one rfl fun _ _ => rfl
  refine ⟨[.objectOpen, .objectClose], .sign rfl (fun _ => rfl) hclose, ?_⟩
  intro s containers hs
  rw [List.foldlM_cons, hs.step_eq Lexeme.noConfusion]
  rfl

end Parts

/-- The text of a tree is read as that tree. -/
theorem read?_of_spells {cs : List Char} {t : Tree} (h : Spells cs t) :
    Tree.read? (String.ofList cs) = some t := by
  rcases h with ⟨ls, hreads, hbuilds⟩
  have hread : Lexeme.read cs = some ls := by
    have hall := hreads [] [] Number.endsBefore_nil
    rw [List.append_nil, List.append_nil] at hall
    rw [Lexeme.read, hall, Lexeme.readOnto, List.reverse_reverse]
  rw [Tree.read?, String.toList_ofList, hread, Option.bind_some, Tree.ofLexemes?,
    hbuilds _ _ (.value [])]
  rfl

end Json
end ComponentMarkup
