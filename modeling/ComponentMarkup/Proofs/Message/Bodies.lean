import ComponentMarkup.Message
import ComponentMarkup.Proofs.Compiler.Documents
import ComponentMarkup.Proofs.Json.Values

/-!
# Bodies that carry markup

A body is compiled exactly when it carries markup, and then it only fails where the markup
fails.  The compiled body reads as the body does, with the document in the place of the
markup.
-/

namespace ComponentMarkup
namespace Message

/-- Whether a body is an object whose member `message`, the last one of that name, is a
text that is not empty. -/
def Carries (body text : String) : Prop :=
  ∃ members, Json.Tree.read? body = some (.object members) ∧
    (Json.Value.ofTree? Json.Value.nestingLimit (.object members)).isSome ∧
    members.reverse.lookup (some field) = some (.string (some text)) ∧ text ≠ ""

theorem markup?_eq_some {body text : String} {members : List (String × Json.Value)} :
    markup? body = some (members, text) ↔
      Json.Value.read? body = some (.object members) ∧
        members.lookup field = some (.string text) ∧ text ≠ "" := by
  unfold markup?
  constructor
  · intro h
    split at h
    · rename_i members hread
      split at h
      · rename_i text hlookup
        split at h
        · cases h
        · rename_i hempty
          cases h
          have hne : text ≠ "" := by
            intro htext
            rw [htext] at hempty
            exact hempty rfl
          exact ⟨hread, hlookup, hne⟩
      · cases h
    · cases h
  · intro h
    rcases h with ⟨hread, hlookup, hne⟩
    rw [hread]
    dsimp only
    rw [hlookup]
    dsimp only
    rw [if_neg (by simpa using hne)]

theorem carries_iff {body text : String} :
    Carries body text ↔ ∃ members, markup? body = some (members, text) := by
  constructor
  · intro h
    rcases h with ⟨ms, hread, hvalue, hlookup, hne⟩
    rcases Option.isSome_iff_exists.mp hvalue with ⟨v, hv⟩
    have hobject := hv
    rw [Json.Value.nestingLimit, Json.Value.ofTree?_object] at hobject
    rcases Option.map_eq_some_iff.mp hobject with ⟨members, hmembers, _⟩
    have hlast := Json.Value.lookup_of_foldlM hmembers field
    rw [hlookup] at hlast
    have hbody := Json.Value.read?_eq_object.mpr ⟨ms, hread, hmembers⟩
    exact ⟨members, markup?_eq_some.mpr ⟨hbody, hlast, hne⟩⟩
  · intro h
    rcases h with ⟨members, hmarkup⟩
    rcases markup?_eq_some.mp hmarkup with ⟨hobject, hlookup, hne⟩
    rcases Json.Value.read?_eq_object.mp hobject with ⟨ms, hread, hmembers⟩
    have hlast := Json.Value.lookup_of_foldlM hmembers field
    rw [hlookup] at hlast
    have hvalue : (Json.Value.ofTree? Json.Value.nestingLimit (.object ms)).isSome := by
      rw [Json.Value.nestingLimit, Json.Value.ofTree?_object, hmembers]
      rfl
    have hmessage : ms.reverse.lookup (some field) = some (.string (some text)) := by
      cases hfound : ms.reverse.lookup (some field) with
      | none =>
          rw [hfound] at hlast
          cases hlast
      | some t =>
          rw [hfound] at hlast
          rw [Json.Value.ofTree?_eq_string.mp hlast.symm]
    exact ⟨ms, hread, hvalue, hmessage, hne⟩

theorem compileToText_eq (c : Compiler) (text : String) :
    c.compileToText text = (c.compile text).map Document.render := by
  rw [Compiler.compileToText]
  cases c.compile text <;> rfl

/-- The value of a body is written anew with the document in the place of the markup. -/
theorem compileBody_of_markup? {c : Compiler} {body text : String}
    {members : List (String × Json.Value)} (h : markup? body = some (members, text)) :
    compileBody c body =
      match c.compile text with
      | .error cause => .error ⟨cause⟩
      | .ok document => .ok (some (Json.Value.object
          (Json.Value.setMember field (.string document.render) members)).render) := by
  rw [compileBody, h]
  dsimp only
  rw [compileToText_eq]
  cases c.compile text <;> rfl

/-- Where the numbers of a body are plain, the body with a text in the place of its markup
is read back. -/
theorem read?_set_markup {body text : String} {members : List (String × Json.Value)}
    {tree : Json.Tree} (h : markup? body = some (members, text))
    (htree : Json.Tree.read? body = some tree) (hplain : tree.PlainNumbers) (document : String) :
    Json.Value.read? (Json.Value.object
        (Json.Value.setMember field (.string document) members)).render =
      some (.object (members.map fun member =>
        if member.1 = field then (member.1, .string document) else member)) := by
  rcases markup?_eq_some.mp h with ⟨hread, hlookup, _⟩
  have hfits : Json.Value.Fits Json.Value.nestingLimit (.object members) := by
    rw [Json.Value.read?, htree, Option.bind_some] at hread
    exact Json.Value.fits_of_ofTree? hplain hread
  have hmem : field ∈ members.map Prod.fst :=
    List.mem_map_of_mem (f := Prod.fst) (Dictionary.mem_of_lookup hlookup)
  rw [Json.Value.read?_render (hfits.setMember_string field document),
    Json.Value.setMember_of_mem hmem hfits.distinct_keys]

theorem compileBody_eq_none_iff {c : Compiler} {body : String} :
    compileBody c body = .ok none ↔ ∀ text, ¬ Carries body text := by
  constructor
  · intro h text hcarries
    rcases carries_iff.mp hcarries with ⟨members, hmarkup⟩
    rw [compileBody_of_markup? hmarkup] at h
    cases hcompile : c.compile text with
    | error cause =>
        rw [hcompile] at h
        cases h
    | ok document =>
        rw [hcompile] at h
        cases h
  · intro h
    cases hmarkup : markup? body with
    | none => rw [compileBody, hmarkup]
    | some found => exact absurd (carries_iff.mpr ⟨found.1, hmarkup⟩) (h found.2)

theorem compileBody_eq_error_iff {c : Compiler} {body : String} {e : Error} :
    compileBody c body = .error e ↔
      ∃ text, Carries body text ∧ c.compile text = .error e.cause := by
  constructor
  · intro h
    cases hmarkup : markup? body with
    | none =>
        rw [compileBody, hmarkup] at h
        cases h
    | some found =>
        rcases found with ⟨members, text⟩
        rw [compileBody_of_markup? hmarkup] at h
        cases hcompile : c.compile text with
        | error cause =>
            rw [hcompile] at h
            cases h
            exact ⟨text, carries_iff.mpr ⟨members, hmarkup⟩, hcompile⟩
        | ok document =>
            rw [hcompile] at h
            cases h
  · intro h
    rcases h with ⟨text, hcarries, hcompile⟩
    rcases carries_iff.mp hcarries with ⟨members, hmarkup⟩
    rw [compileBody_of_markup? hmarkup, hcompile]

/-- A body is left alone exactly when it carries no markup, and fails exactly when its
markup does.  Otherwise it is compiled, and where its numbers are plain, the result reads as
the same members in the same order, with the document in the place of the markup. -/
theorem compileBody_carries (c : Compiler) (body : String) :
    (compileBody c body = .ok none ↔ ∀ text, ¬ Carries body text) ∧
    (∀ e, compileBody c body = .error e ↔
      ∃ text, Carries body text ∧ c.compile text = .error e.cause) ∧
    ∀ text document, Carries body text → c.compile text = .ok document →
      ∃ out, compileBody c body = .ok (some out) ∧
        ∀ tree, Json.Tree.read? body = some tree → tree.PlainNumbers →
          ∃ members, Json.Value.read? body = some (.object members) ∧
            Json.Value.read? out = some (.object (members.map fun member =>
              if member.1 = field then (member.1, .string document.render) else member)) := by
  constructor
  · exact compileBody_eq_none_iff
  · constructor
    · intro e
      exact compileBody_eq_error_iff
    · intro text document hcarries hcompile
      rcases carries_iff.mp hcarries with ⟨members, hmarkup⟩
      have hout := compileBody_of_markup? (c := c) hmarkup
      rw [hcompile] at hout
      apply Exists.intro _
      apply And.intro hout
      intro tree htree hplain
      exact ⟨members, (markup?_eq_some.mp hmarkup).1,
        read?_set_markup hmarkup htree hplain document.render⟩

/-- A body with the least and the greatest whole number between two members of one name. -/
def sampleBody : String :=
  "\x7b \"message\": 0, \"n\": [-9223372036854775808, 18446744073709551615], " ++
    "\"message\": \"![em][\\\"a\\\"]!\" \x7d"

def sampleTree : Json.Tree :=
  .object [(some "message", .number ⟨false, ['0'], [], none⟩),
    (some "n", .array [.number ⟨true, "9223372036854775808".toList, [], none⟩,
      .number ⟨false, "18446744073709551615".toList, [], none⟩]),
    (some "message", .string (some "![em][\"a\"]!"))]

def sampleCompiler : Compiler :=
  ⟨Compiler.styledRegistry, Script.evaluator 8, 100, 2⟩

theorem plainNumbers_sampleTree : sampleTree.PlainNumbers := by
  have hzero : Json.Numeral.IsPlain ⟨false, ['0'], [], none⟩ := ⟨rfl, rfl, by decide⟩
  have hleast : Json.Numeral.IsPlain ⟨true, "9223372036854775808".toList, [], none⟩ :=
    ⟨rfl, rfl, by decide⟩
  have hgreatest : Json.Numeral.IsPlain ⟨false, "18446744073709551615".toList, [], none⟩ :=
    ⟨rfl, rfl, by decide⟩
  apply Json.Tree.PlainNumbers.object
  simp only [List.forall_mem_cons]
  constructor
  · exact .number hzero
  · constructor
    · apply Json.Tree.PlainNumbers.array
      simp only [List.forall_mem_cons]
      exact ⟨.number hleast, .number hgreatest, List.forall_mem_nil _⟩
    · exact ⟨.string _, List.forall_mem_nil _⟩

theorem compileBody_carries_sampleBody :
    (Carries sampleBody "![em][\"a\"]!" ∧
      sampleCompiler.compile "![em][\"a\"]!" = .ok ⟨"<em>\"a\"</em>", "em\x7b\x7d "⟩ ∧
      Json.Tree.read? sampleBody = some sampleTree ∧ sampleTree.PlainNumbers) ∧
    ∃ out, compileBody sampleCompiler sampleBody = .ok (some out) ∧
      Json.Value.read? out = some (.object [
        ("message", .string "<style>em\x7b\x7d </style><em>\"a\"</em>"),
        ("n", .array [.number (.negative 9223372036854775808),
          .number (.natural 18446744073709551615)])]) := by
  have hlexemes : Json.Lexeme.read sampleBody.toList = some [.objectOpen,
      .string (some "message"), .colon, .number ⟨false, ['0'], [], none⟩, .comma,
      .string (some "n"), .colon, .arrayOpen,
      .number ⟨true, "9223372036854775808".toList, [], none⟩, .comma,
      .number ⟨false, "18446744073709551615".toList, [], none⟩, .arrayClose, .comma,
      .string (some "message"), .colon, .string (some "![em][\"a\"]!"), .objectClose] := by
    decide +kernel
  have htree : Json.Tree.read? sampleBody = some sampleTree := by
    rw [Json.Tree.read?, hlexemes]
    rfl
  have hcarries : Carries sampleBody "![em][\"a\"]!" :=
    ⟨_, htree, rfl, rfl, by decide⟩
  have hcompile : sampleCompiler.compile "![em][\"a\"]!" =
      .ok ⟨"<em>\"a\"</em>", "em\x7b\x7d "⟩ := by
    decide +kernel
  have hread : Json.Value.read? sampleBody = some (.object [
      ("message", .string "![em][\"a\"]!"),
      ("n", .array [.number (.negative 9223372036854775808),
        .number (.natural 18446744073709551615)])]) := by
    rw [Json.Value.read?, htree]
    rfl
  rcases (compileBody_carries sampleCompiler sampleBody).2.2 _ _ hcarries hcompile with
    ⟨out, hout, hback⟩
  rcases hback sampleTree htree plainNumbers_sampleTree with ⟨members, hmembers, hsame⟩
  rw [hread] at hmembers
  cases hmembers
  exact ⟨⟨hcarries, hcompile, htree, plainNumbers_sampleTree⟩, out, hout, hsame⟩

end Message
end ComponentMarkup
