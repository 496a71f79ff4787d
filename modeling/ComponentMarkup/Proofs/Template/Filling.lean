import ComponentMarkup.Proofs.Text.Searching
import ComponentMarkup.Proofs.Text.Spans
import ComponentMarkup.Template

/-!
# Filling in codes from left to right

Filling is one scan: a code at the front gives way to its value, which is not
scanned again, and any other first character stays.  That a text without the mark
of a code is not scanned at all makes no difference.
-/

namespace ComponentMarkup
namespace Template

/-!
# Codes at the front
-/

theorem continuesCode_iff {c : Char} : continuesCode c = true ↔ c ≠ '\x7d' ∧ c ≠ '\n' := by
  simp [continuesCode]

theorem codeAtFront?_eq_none {cs : List Char} (h : ¬ codeMark <+: cs) :
    codeAtFront? cs = none := by
  rw [codeAtFront?, if_neg]
  rw [List.isPrefixOf_iff_prefix]
  exact h

theorem splitCode?_eq_some_iff {cs code after : List Char} :
    splitCode? cs = some (code, after) ↔
      cs = code ++ '\x7d' :: after ∧
        ∃ c more, code = c :: more ∧ c ≠ '\n' ∧ ∀ d ∈ more, continuesCode d = true := by
  constructor
  · intro h
    cases cs with
    | nil => cases h
    | cons c rest =>
        rw [splitCode?] at h
        split at h
        · cases h
        · rename_i hfirst
          split at h
          · rename_i found hdrop
            cases h
            refine ⟨?_, c, _, rfl, hfirst, fun d hd => List.all_eq_true.mp List.all_takeWhile d hd⟩
            rw [List.cons_append, ← hdrop, List.takeWhile_append_dropWhile]
          · cases h
  · rintro ⟨rfl, c, more, rfl, hfirst, hmore⟩
    have hstop : ∀ d ∈ ('\x7d' :: after).head?, continuesCode d = false := by
      intro d hd
      cases hd
      rfl
    rw [List.cons_append, splitCode?, if_neg hfirst, Text.dropWhile_append_stopped hmore hstop,
      Text.takeWhile_append_stopped hmore hstop]
    rfl

/-- A code runs up to the first closing brace behind its first character. -/
theorem codeAtFront?_eq_some_iff {cs code after : List Char} :
    codeAtFront? cs = some (code, after) ↔
      cs = codeMark ++ code ++ '\x7d' :: after ∧
        ∃ c more, code = c :: more ∧ c ≠ '\n' ∧ ∀ d ∈ more, continuesCode d = true := by
  rw [codeAtFront?]
  split
  · rename_i hmark
    obtain ⟨rest, rfl⟩ := List.isPrefixOf_iff_prefix.mp hmark
    rw [List.drop_left, splitCode?_eq_some_iff, List.append_assoc, List.append_cancel_left_eq]
  · rename_i hmark
    simp only [reduceCtorEq, false_iff, not_and]
    rintro rfl
    rw [List.isPrefixOf_iff_prefix, List.append_assoc] at hmark
    exact absurd (List.prefix_append codeMark _) hmark

variable (evaluator : Evaluator) (scope : Scope)

/-!
# Pieces behind other pieces
-/

theorem fillOnto_eq_map (out : String) (pieces : List Piece) :
    fillOnto evaluator scope out pieces =
      (fillOnto evaluator scope "" pieces).map (out ++ ·) := by
  induction pieces generalizing out with
  | nil => simp [fillOnto, Except.map]
  | cons piece rest ih =>
      cases piece with
      | literal text =>
          rw [fillOnto, fillOnto, ih (out ++ text), ih ("" ++ text)]
          cases fillOnto evaluator scope "" rest <;> simp [Except.map, String.append_assoc]
      | code code =>
          rw [fillOnto, fillOnto]
          cases evaluator code scope with
          | error cause => rfl
          | ok value =>
              dsimp only
              rw [ih (out ++ value), ih ("" ++ value)]
              cases fillOnto evaluator scope "" rest <;> simp [Except.map, String.append_assoc]

theorem fillOnto_pushLiteral (out : String) (literal : List Char) (rest : List Piece) :
    fillOnto evaluator scope out ((pushLiteral literal []).reverse ++ rest) =
      fillOnto evaluator scope (out ++ String.ofList literal.reverse) rest := by
  cases literal with
  | nil => simp [pushLiteral]
  | cons c others => rfl

theorem pushLiteral_append (literal : List Char) (pieces earlier : List Piece) :
    pushLiteral literal (pieces ++ earlier) = pushLiteral literal pieces ++ earlier := by
  cases literal <;> rfl

theorem piecesOnto_cons_of_none {c : Char} {rest : List Char}
    (h : codeAtFront? (c :: rest) = none) (pieces : List Piece) (literal : List Char) :
    piecesOnto pieces literal (c :: rest) = piecesOnto pieces (c :: literal) rest := by
  rw [piecesOnto]
  split
  · rename_i hcode
    rw [h] at hcode
    cases hcode
  · rfl

theorem piecesOnto_cons_of_code {c : Char} {rest code after : List Char}
    (h : codeAtFront? (c :: rest) = some (code, after)) (pieces : List Piece)
    (literal : List Char) :
    piecesOnto pieces literal (c :: rest) =
      piecesOnto (.code (String.ofList code) :: pushLiteral literal pieces) [] after := by
  rw [piecesOnto]
  split
  · rename_i hcode
    rw [h] at hcode
    cases hcode
    rfl
  · rename_i hcode
    rw [h] at hcode
    cases hcode

theorem piecesOnto_append (pieces earlier : List Piece) (literal cs : List Char) :
    piecesOnto (pieces ++ earlier) literal cs =
      earlier.reverse ++ piecesOnto pieces literal cs := by
  fun_induction piecesOnto pieces literal cs with
  | case1 pieces literal => simp [piecesOnto, pushLiteral_append]
  | case2 pieces literal c rest code after hcode ih =>
      rw [piecesOnto_cons_of_code hcode, pushLiteral_append]
      exact ih
  | case3 pieces literal c rest hcode ih =>
      rw [piecesOnto_cons_of_none hcode]
      exact ih

theorem fillOnto_piecesOnto_of_code {c : Char} {rest code after : List Char}
    (h : codeAtFront? (c :: rest) = some (code, after)) (out : String) (literal : List Char) :
    fillOnto evaluator scope out (piecesOnto [] literal (c :: rest)) =
      fillOnto evaluator scope (out ++ String.ofList literal.reverse)
        (.code (String.ofList code) :: piecesOnto [] [] after) := by
  have happend := piecesOnto_append [] (.code (String.ofList code) :: pushLiteral literal [])
    [] after
  rw [List.nil_append] at happend
  rw [piecesOnto_cons_of_code h, happend, List.reverse_cons, List.append_assoc,
    fillOnto_pushLiteral]
  rfl

theorem fillOnto_piecesOnto (out : String) (literal cs : List Char) :
    fillOnto evaluator scope out (piecesOnto [] literal cs) =
      fillOnto evaluator scope (out ++ String.ofList literal.reverse)
        (piecesOnto [] [] cs) := by
  induction cs generalizing out literal with
  | nil =>
      have hliteral := fillOnto_pushLiteral evaluator scope out literal []
      rw [List.append_nil] at hliteral
      rw [piecesOnto, hliteral, piecesOnto]
      rfl
  | cons c rest ih =>
      cases hcode : codeAtFront? (c :: rest) with
      | some found =>
          rw [fillOnto_piecesOnto_of_code evaluator scope hcode,
            fillOnto_piecesOnto_of_code evaluator scope hcode]
          simp
      | none =>
          rw [piecesOnto_cons_of_none hcode, piecesOnto_cons_of_none hcode, ih,
            ih _ [c], List.reverse_cons, String.ofList_append, String.append_assoc]
          rfl

/-!
# The scan
-/

/-- Without the mark of a code everything is literal. -/
theorem fillOnto_piecesOnto_of_unmarked {cs : List Char} (h : ¬ codeMark <:+: cs)
    (out : String) : fillOnto evaluator scope out (piecesOnto [] [] cs) =
      .ok (out ++ String.ofList cs) := by
  induction cs generalizing out with
  | nil => simp [piecesOnto, pushLiteral, fillOnto]
  | cons c rest ih =>
      have hfront : codeAtFront? (c :: rest) = none :=
        codeAtFront?_eq_none fun hprefix => h hprefix.isInfix
      rw [piecesOnto_cons_of_none hfront, fillOnto_piecesOnto,
        ih fun hinfix => h (List.infix_cons hinfix), String.append_assoc, ← String.ofList_append]
      rfl

theorem fill_eq_fillOnto (html : String) :
    fill evaluator scope html = fillOnto evaluator scope "" (pieces html) := by
  rw [fill]
  split
  · rfl
  · rename_i hmark
    have hunmarked : ¬ codeMark <:+: html.toList := fun hinfix =>
      hmark (Text.contains_iff.mpr hinfix)
    rw [pieces, fillOnto_piecesOnto_of_unmarked evaluator scope hunmarked, String.ofList_toList,
      String.empty_append]

theorem fill_nil : fill evaluator scope (String.ofList []) = .ok "" := by
  simp [fill_eq_fillOnto, pieces, piecesOnto, pushLiteral, fillOnto]

theorem fill_cons {c : Char} {rest : List Char} (h : codeAtFront? (c :: rest) = none) :
    fill evaluator scope (String.ofList (c :: rest)) =
      (fill evaluator scope (String.ofList rest)).map (String.singleton c ++ ·) := by
  rw [fill_eq_fillOnto, fill_eq_fillOnto, pieces, pieces, String.toList_ofList,
    String.toList_ofList, piecesOnto_cons_of_none h, fillOnto_piecesOnto, fillOnto_eq_map]
  rfl

theorem fill_code {cs code after : List Char} (h : codeAtFront? cs = some (code, after)) :
    fill evaluator scope (String.ofList cs) =
      (evaluator (String.ofList code) scope).bind fun value =>
        (fill evaluator scope (String.ofList after)).map (value ++ ·) := by
  cases cs with
  | nil => cases h
  | cons c rest =>
      rw [fill_eq_fillOnto, pieces, String.toList_ofList,
        fillOnto_piecesOnto_of_code evaluator scope h, fillOnto]
      cases evaluator (String.ofList code) scope with
      | error cause => rfl
      | ok value =>
          dsimp only [Except.bind]
          rw [fillOnto_eq_map, fill_eq_fillOnto, pieces, String.toList_ofList]
          simp

theorem fill_append_of_not_mem {cs : List Char} (h : '$' ∉ cs) (rest : List Char) :
    fill evaluator scope (String.ofList (cs ++ rest)) =
      (fill evaluator scope (String.ofList rest)).map (String.ofList cs ++ ·) := by
  induction cs with
  | nil => cases hrest : fill evaluator scope (String.ofList rest) <;> simp [hrest, Except.map]
  | cons c others ih =>
      have hfront : codeAtFront? (c :: (others ++ rest)) = none := by
        apply codeAtFront?_eq_none
        rw [codeMark, List.cons_prefix_cons]
        rintro ⟨rfl, _⟩
        exact h List.mem_cons_self
      rw [List.cons_append, fill_cons evaluator scope hfront,
        ih fun hmem => h (List.mem_cons_of_mem c hmem)]
      cases fill evaluator scope (String.ofList rest) with
      | error cause => rfl
      | ok text => simp [Except.map, String.ofList_cons, String.append_assoc]

end Template
end ComponentMarkup
