import ComponentMarkup.Expansion
import ComponentMarkup.Markup.Parse
import ComponentMarkup.Script.Evaluation

/-!
# Compiling markup

A text is compiled in three steps: its tokens, its statements and their
expansion, each of which can fail.  The result is a document: the text with all
components expanded and the styles of the components used.
-/

namespace ComponentMarkup

structure Document where
  html : String
  /-- The styles of the components used, each once, in the order of first use. -/
  css : String
deriving DecidableEq

/-- The document as one fragment, with its styles in front. -/
def Document.render (d : Document) : String :=
  "<style>" ++ d.css ++ "</style>" ++ d.html

inductive CompileError where
  | ofScan (cause : Markup.ScanError)
  | ofParse (cause : Markup.ParseError)
  | ofExpansion (cause : ExpansionError)
deriving DecidableEq

def CompileError.message : CompileError → String
  | .ofScan cause => cause.message
  | .ofParse cause => cause.message
  | .ofExpansion cause => cause.message

/-- The evaluator of the built-in expression language. -/
def Script.evaluator (limit : Nat) : Template.Evaluator := fun code scope => do
  let value ← Script.evaluateCode limit code scope
  return value.toText

structure Compiler where
  registry : Registry
  evaluator : Template.Evaluator := Script.evaluator Script.defaultDepthLimit
  /-- The greatest number of tokens of a text. -/
  tokenLimit : Nat := Markup.defaultTokenLimit
  /-- The deepest nesting of invocations in a text. -/
  nestingLimit : Nat := Markup.defaultNestingLimit

namespace Compiler

def statements (c : Compiler) (s : String) :
    Except CompileError (List Markup.Statement) :=
  match Markup.tokenize c.tokenLimit s with
  | .error cause => .error (.ofScan cause)
  | .ok tokens =>
      match Markup.parse c.registry c.nestingLimit tokens with
      | .error cause => .error (.ofParse cause)
      | .ok statements => .ok statements

def compile (c : Compiler) (s : String) : Except CompileError Document :=
  match c.statements s with
  | .error cause => .error cause
  | .ok statements =>
      match expand c.registry c.evaluator statements Stylesheet.empty with
      | (.error cause, _) => .error (.ofExpansion cause)
      | (.ok html, sheet) => .ok ⟨html, sheet.css⟩

def compileToText (c : Compiler) (s : String) : Except CompileError String := do
  let document ← c.compile s
  return document.render

end Compiler
end ComponentMarkup
