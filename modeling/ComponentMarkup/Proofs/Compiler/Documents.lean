import ComponentMarkup.Compiler
import ComponentMarkup.Proofs.Expansion.Stylesheets
import ComponentMarkup.Proofs.Markup.Tokenizing

/-!
# Compiled documents

The text of a document is what its statements write, and its styles are those of the
components named in the source, each once and in the order of their first use.
-/

namespace ComponentMarkup

open Markup (Statement Token invokedNames)

namespace Compiler

variable {c : Compiler}

theorem statements_of_le {text : String}
    (h : (Token.scan text.toList).length ≤ c.tokenLimit) :
    c.statements text =
      (Markup.parse c.registry c.nestingLimit (Token.scan text.toList)).mapError .ofParse := by
  unfold Compiler.statements
  rw [Markup.tokenize_of_le h]
  dsimp only
  cases Markup.parse c.registry c.nestingLimit (Token.scan text.toList) <;> rfl

theorem statements_of_lt {text : String}
    (h : c.tokenLimit < (Token.scan text.toList).length) :
    c.statements text = .error (.ofScan (.tooManyTokens c.tokenLimit)) := by
  unfold Compiler.statements
  rw [Markup.tokenize_of_lt h]

theorem statements_eq_ok {text : String} {statements : List Statement} :
    c.statements text = .ok statements ↔
      (Token.scan text.toList).length ≤ c.tokenLimit ∧
        Markup.parse c.registry c.nestingLimit (Token.scan text.toList) = .ok statements := by
  rcases Nat.lt_or_ge c.tokenLimit (Token.scan text.toList).length with hlt | hle
  · rw [statements_of_lt hlt]
    simp [hlt]
  · rw [statements_of_le hle]
    cases Markup.parse c.registry c.nestingLimit (Token.scan text.toList) <;>
      simp [hle, Except.mapError]

theorem invoked_of_statements {text : String} {statements : List Statement}
    (h : c.statements text = .ok statements) :
    Statement.invoked statements = invokedNames (Token.scan text.toList) :=
  Markup.invoked_of_parse (statements_eq_ok.mp h).2

theorem contains_of_statements {text : String} {statements : List Statement}
    (h : c.statements text = .ok statements) :
    ∀ name ∈ invokedNames (Token.scan text.toList), c.registry.contains name = true :=
  fun _ hname => Markup.contains_of_mem_invokedNames (statements_eq_ok.mp h).2 hname

/-- The document of some statements, unless their expansion fails. -/
def documentOf (c : Compiler) (statements : List Statement) : Except CompileError Document :=
  match (expand c.registry c.evaluator statements Stylesheet.empty).1 with
  | .error cause => .error (.ofExpansion cause)
  | .ok html => .ok ⟨html, c.registry.styles (Statement.invoked statements).eraseDups⟩

/-- The document of a text is that of its statements. -/
theorem compile_of_statements {text : String} {statements : List Statement}
    (h : c.statements text = .ok statements) : c.compile text = c.documentOf statements := by
  have hnotes : Expansion.Notes c.registry Stylesheet.empty (Statement.invoked statements)
      (expand c.registry c.evaluator statements Stylesheet.empty) :=
    Expansion.notes_expandOnto "" Stylesheet.empty statements
  have hknown := contains_of_statements h
  rw [← invoked_of_statements h] at hknown
  rw [compile, h, documentOf]
  dsimp only
  rcases hexpand : expand c.registry c.evaluator statements Stylesheet.empty with
    ⟨cause | html, sheet⟩
  · rfl
  · rw [hexpand] at hnotes
    have hsheet : sheet = Stylesheet.empty.noteAll c.registry (Statement.invoked statements) :=
      hnotes.sheet_of_ok rfl
    dsimp only
    rw [hsheet, Stylesheet.noteAll_eq, Stylesheet.newNames_empty hknown, Stylesheet.empty,
      String.empty_append]

theorem compile_eq (c : Compiler) (text : String) :
    c.compile text = c.statements text >>= c.documentOf := by
  cases hstatements : c.statements text with
  | error cause =>
      rw [compile, hstatements]
      rfl
  | ok statements => exact compile_of_statements hstatements

theorem compile_eq_ok {text : String} {d : Document} :
    c.compile text = .ok d ↔
      ∃ statements, c.statements text = .ok statements ∧ c.documentOf statements = .ok d := by
  rw [compile_eq]
  cases c.statements text with
  | error cause => simp [bind, Except.bind]
  | ok statements => simp [bind, Except.bind]

/-!
# The order of the styles
-/

/-- The styles of a document are those of the components named behind the opening
sequences of its source, which are all known.  Each component brings its style once, in
the order of the first sequences with their names. -/
theorem css_of_compile {text : String} {d : Document} (h : c.compile text = .ok d) :
    d.css = c.registry.styles (invokedNames (Token.scan text.toList)).eraseDups ∧
      (invokedNames (Token.scan text.toList)).eraseDups.Nodup ∧
      ∀ name ∈ invokedNames (Token.scan text.toList), c.registry.contains name = true := by
  rcases compile_eq_ok.mp h with ⟨statements, hstatements, hdocument⟩
  have hknown := contains_of_statements hstatements
  refine ⟨?_, Stylesheet.nodup_of_known hknown, hknown⟩
  unfold documentOf at hdocument
  split at hdocument
  · cases hdocument
  · cases hdocument
    rw [invoked_of_statements hstatements]

/-- Three components with a style of their own. -/
def styledRegistry : Registry :=
  Registry.ofComponents [
    { name := "Box", parameters := ["content"], html := "<div>${content}</div>",
      style := "div\x7b\x7d " },
    { name := "em", parameters := ["content"], html := "<em>${content}</em>",
      style := "em\x7b\x7d " },
    { name := "hr", parameters := [], html := "<hr>", style := "hr\x7b\x7d " }]

/-- A component comes before those in its arguments, and its name may be written in any
case. -/
theorem css_of_compile_nested :
    Compiler.compile ⟨styledRegistry, Script.evaluator 8, 100, 2⟩
        "![box][![EM][a]!![hr]!![Box][b]!]!![em][c]!" =
      .ok ⟨"<div><em>a</em><hr><div>b</div></div><em>c</em>",
        "div\x7b\x7d em\x7b\x7d hr\x7b\x7d "⟩ ∧
    "div\x7b\x7d em\x7b\x7d hr\x7b\x7d " = styledRegistry.styles ["box", "em", "hr"] := by
  have hcompile : Compiler.compile ⟨styledRegistry, Script.evaluator 8, 100, 2⟩
        "![box][![EM][a]!![hr]!![Box][b]!]!![em][c]!" =
      .ok ⟨"<div><em>a</em><hr><div>b</div></div><em>c</em>",
        "div\x7b\x7d em\x7b\x7d hr\x7b\x7d "⟩ := by decide +kernel
  have hnames : (invokedNames (Token.scan
      "![box][![EM][a]!![hr]!![Box][b]!]!![em][c]!".toList)).eraseDups =
        ["box", "em", "hr"] := by decide +kernel
  refine ⟨hcompile, ?_⟩
  rw [← hnames]
  exact (css_of_compile hcompile).1

end Compiler
end ComponentMarkup
