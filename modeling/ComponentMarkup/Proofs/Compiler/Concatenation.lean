import ComponentMarkup.Proofs.Compiler.Documents
import ComponentMarkup.Proofs.Markup.Concatenation
import ComponentMarkup.Proofs.Markup.Scanning

/-!
# Compiling one text behind another

A text behind another is compiled as it is on its own, as long as no control sequence is
met at the border: it adds its text and the styles that are still missing.
-/

namespace ComponentMarkup

open Markup (Statement Token invokedNames)
open Template (Evaluator)

namespace Expansion

variable {registry : Registry} {evaluator : Evaluator}

/-!
# Statements behind statements
-/

theorem expandOnto_append (out : String) (sheet : Stylesheet) (statements others : List Statement) :
    expandOnto registry evaluator out sheet (statements ++ others) =
      let first := expandOnto registry evaluator out sheet statements
      match first.1 with
      | .error cause => (.error cause, first.2)
      | .ok text => expandOnto registry evaluator text first.2 others := by
  induction statements generalizing out sheet with
  | nil =>
      rw [List.nil_append, expandOnto]
  | cons s rest ih =>
      cases s with
      | text content =>
          rw [List.cons_append, expandOnto, expandOnto]
          exact ih (out ++ content) sheet
      | invocation name arguments =>
          rw [List.cons_append, expandOnto_invocation_cons, expandOnto_invocation_cons]
          cases component registry name arguments.length with
          | error cause => rfl
          | ok c =>
              dsimp only
              split
              · rfl
              · split
                · rfl
                · exact ih _ _

theorem expandOnto_letters (out : String) (sheet : Stylesheet) (cs : List Char)
    (rest : List Statement) :
    expandOnto registry evaluator out sheet
        ((cs.map fun c => .text (String.singleton c)) ++ rest) =
      expandOnto registry evaluator (out ++ String.ofList cs) sheet rest := by
  induction cs generalizing out with
  | nil => simp
  | cons c others ih =>
      rw [List.map_cons, List.cons_append, expandOnto, ih, String.append_assoc]
      congr 2
      simp

/-- Statements write the same with their texts in letters. -/
theorem expandOnto_spelled (out : String) (sheet : Stylesheet) (statements : List Statement) :
    expandOnto registry evaluator out sheet (Statement.spelled statements) =
      expandOnto registry evaluator out sheet statements := by
  induction statements generalizing out sheet with
  | nil => rfl
  | cons s rest ih =>
      cases s with
      | text content =>
          rw [Statement.spelled_text_cons, expandOnto_letters, String.ofList_toList, expandOnto]
          exact ih (out ++ content) sheet
      | invocation name arguments =>
          rw [Statement.spelled_invocation_cons, expandOnto_invocation_cons,
            expandOnto_invocation_cons]
          simp only [ih]

/-- Statements behind others add their text, or fail as they do on their own. -/
theorem expand_append {statements others : List Statement} {text : String}
    (h : (expand registry evaluator statements Stylesheet.empty).1 = .ok text) :
    (expand registry evaluator (statements ++ others) Stylesheet.empty).1 =
      (expand registry evaluator others Stylesheet.empty).1.map (text ++ ·) := by
  rw [expand] at h ⊢
  rw [expandOnto_append]
  dsimp only
  rw [h]
  exact expandOnto_fst text _ others

theorem expand_congr {statements others : List Statement}
    (h : Statement.spelled statements = Statement.spelled others) :
    expand registry evaluator statements Stylesheet.empty =
      expand registry evaluator others Stylesheet.empty := by
  rw [expand, ← expandOnto_spelled, h, expandOnto_spelled, ← expand]

end Expansion

namespace Compiler

variable {c : Compiler}

/-!
# Texts behind texts
-/

theorem statements_append {first second : String} {statements : List Statement}
    (hapart : Token.Apart first.toList second.toList)
    (hlimit : (Token.scan first.toList).length + (Token.scan second.toList).length ≤
      c.tokenLimit)
    (h : c.statements first = .ok statements) :
    FailAlike (fun found joined => Statement.spelled joined =
        Statement.spelled statements ++ Statement.spelled found)
      (c.statements second) (c.statements (first ++ second)) := by
  have hparse := Markup.parse_append (statements_eq_ok.mp h).2 (Token.scan second.toList)
  have hscan : Token.scan (first ++ second).toList =
      Token.scan first.toList ++ Token.scan second.toList := by
    rw [String.toList_append, Token.scan_append hapart]
  have hsecond : (Token.scan second.toList).length ≤ c.tokenLimit :=
    Nat.le_trans (Nat.le_add_left _ _) hlimit
  have hboth : (Token.scan (first ++ second).toList).length ≤ c.tokenLimit := by
    rw [hscan, List.length_append]
    exact hlimit
  rw [statements_of_le hsecond, statements_of_le hboth, hscan]
  exact hparse.mapError CompileError.ofParse

/-- The styles of some components and those that others add. -/
theorem styles_eraseDups_append (r : Registry) (names others : List String) :
    r.styles (names ++ others).eraseDups =
      r.styles names.eraseDups ++ r.styles (others.removeAll names).eraseDups := by
  rw [List.eraseDups_append, r.styles_append]

theorem documentOf_append {statements found joined : List Statement} {d : Document}
    (h : c.documentOf statements = .ok d)
    (hjoined : Statement.spelled joined =
      Statement.spelled statements ++ Statement.spelled found) :
    FailAlike (fun added document => document =
        ⟨d.html ++ added.html, d.css ++ c.registry.styles
          ((Statement.invoked found).removeAll (Statement.invoked statements)).eraseDups⟩)
      (c.documentOf found) (c.documentOf joined) := by
  rw [← Statement.spelled_append] at hjoined
  have hinvoked : Statement.invoked joined =
      Statement.invoked statements ++ Statement.invoked found := by
    rw [← Statement.invoked_spelled, hjoined, Statement.invoked_spelled,
      Statement.invoked_append]
  unfold documentOf at h ⊢
  rw [Expansion.expand_congr hjoined, hinvoked, styles_eraseDups_append]
  split at h
  · cases h
  · rename_i html hhtml
    cases h
    rw [Expansion.expand_append hhtml]
    cases (expand c.registry c.evaluator found Stylesheet.empty).1 with
    | error cause => exact FailAlike.error (CompileError.ofExpansion cause)
    | ok text => exact FailAlike.ok rfl

/-- A text behind another that compiles adds what it writes on its own and the styles of
the components that the other does not use, or fails with its own error. -/
theorem compile_append {first second : String} {d : Document}
    (hapart : Token.Apart first.toList second.toList)
    (hlimit : (Token.scan first.toList).length + (Token.scan second.toList).length ≤
      c.tokenLimit)
    (h : c.compile first = .ok d) :
    (∀ added, c.compile second = .ok added → c.compile (first ++ second) =
      .ok ⟨d.html ++ added.html, d.css ++ c.registry.styles
        ((invokedNames (Token.scan second.toList)).removeAll
          (invokedNames (Token.scan first.toList))).eraseDups⟩) ∧
    ∀ cause, c.compile second = .error cause → c.compile (first ++ second) = .error cause := by
  rcases compile_eq_ok.mp h with ⟨statements, hfirst, hdocument⟩
  have hstatements := statements_append hapart hlimit hfirst
  rw [compile_eq c second, compile_eq c (first ++ second)]
  cases hsecond : c.statements second with
  | error cause =>
      rw [hsecond] at hstatements
      rw [hstatements.eq_error]
      constructor
      · intro added hadded
        cases hadded
      · exact fun _ hcause => hcause
  | ok found =>
      rw [hsecond] at hstatements
      rcases hstatements.exists_ok with ⟨joined, hboth, hjoined⟩
      have hadds := documentOf_append hdocument hjoined
      rw [invoked_of_statements hfirst, invoked_of_statements hsecond] at hadds
      rw [hboth]
      constructor
      · intro added hadded
        change c.documentOf found = .ok added at hadded
        rw [hadded] at hadds
        rcases hadds.exists_ok with ⟨document, hok, heq⟩
        rw [← heq]
        exact hok
      · intro cause hcause
        change c.documentOf found = .error cause at hcause
        rw [hcause] at hadds
        exact hadds.eq_error

/-- The two texts share the text at their border and the style of `em`. -/
theorem compile_append_shared :
    Compiler.compile ⟨styledRegistry, Script.evaluator 8, 100, 2⟩
        ("![em][a]! and" ++ " more![hr]!![EM][b]!") =
      .ok ⟨"<em>a</em> and more<hr><em>b</em>", "em\x7b\x7d hr\x7b\x7d "⟩ := by
  have hapart : Token.Apart "![em][a]! and".toList " more![hr]!![EM][b]!".toList := by
    have hlast : (Token.scan "![em][a]! and".toList).getLast? = some (.char 'd') := by
      decide +kernel
    intro c hc d hd
    rw [hlast] at hc
    cases hc
    cases hd
    decide
  have hfirst : Compiler.compile ⟨styledRegistry, Script.evaluator 8, 100, 2⟩
      "![em][a]! and" = .ok ⟨"<em>a</em> and", "em\x7b\x7d "⟩ := by decide +kernel
  have hsecond : Compiler.compile ⟨styledRegistry, Script.evaluator 8, 100, 2⟩
      " more![hr]!![EM][b]!" = .ok ⟨" more<hr><em>b</em>", "hr\x7b\x7d em\x7b\x7d "⟩ := by
    decide +kernel
  rw [(compile_append hapart (by decide +kernel) hfirst).1 _ hsecond]
  decide +kernel

end Compiler
end ComponentMarkup
