/-!
# Tokens of component markup

Free text is a row of tokens: single characters and the three control sequences
`![`, `][` and `]!`, which open an invocation, separate its arguments and close
it.  The tokens are read from the left and a control sequence is taken wherever
its two characters are met.
-/

namespace ComponentMarkup
namespace Markup

inductive Token where
  /-- A character of its own. -/
  | char (c : Char)
  /-- The sequence `![`. -/
  | opening
  /-- The sequence `][`. -/
  | separator
  /-- The sequence `]!`. -/
  | closing
deriving DecidableEq

namespace Token

def source : Token → List Char
  | .char c => [c]
  | .opening => ['!', '[']
  | .separator => [']', '[']
  | .closing => [']', '!']

def text (t : Token) : String :=
  String.ofList t.source

/-- Read the tokens of a text behind those already read, last first. -/
def scanOnto (seen : List Token) : List Char → List Token
  | [] => seen.reverse
  | '!' :: '[' :: rest => scanOnto (.opening :: seen) rest
  | ']' :: '[' :: rest => scanOnto (.separator :: seen) rest
  | ']' :: '!' :: rest => scanOnto (.closing :: seen) rest
  | c :: rest => scanOnto (.char c :: seen) rest

def scan (cs : List Char) : List Token :=
  scanOnto [] cs

theorem scanOnto_append (seen earlier : List Token) (cs : List Char) :
    scanOnto (seen ++ earlier) cs = earlier.reverse ++ scanOnto seen cs := by
  fun_induction scanOnto seen cs with
  | case1 => simp [scanOnto]
  | case2 seen rest ih => rw [scanOnto]; exact ih
  | case3 seen rest ih => rw [scanOnto]; exact ih
  | case4 seen rest ih => rw [scanOnto]; exact ih
  | case5 seen c rest h1 h2 h3 ih =>
      rw [scanOnto]
      · exact ih
      · exact h1
      · exact h2
      · exact h3

theorem scanOnto_cons (t : Token) (cs : List Char) :
    scanOnto [t] cs = t :: scan cs :=
  scanOnto_append [] [t] cs

theorem flatMap_source_scanOnto (seen : List Token) (cs : List Char) :
    (scanOnto seen cs).flatMap source = seen.reverse.flatMap source ++ cs := by
  fun_induction scanOnto seen cs <;> simp_all [source]

end Token

inductive ScanError where
  | tooManyTokens (limit : Nat)
deriving DecidableEq

def ScanError.message : ScanError → String
  | .tooManyTokens limit => s!"lexing failed: looped more than {limit} times"

/-- The greatest number of tokens, unless another is set. -/
def defaultTokenLimit : Nat :=
  100000

/-- The tokens of a text, if there are at most `limit` of them. -/
def tokenize (limit : Nat) (s : String) : Except ScanError (List Token) :=
  let tokens := Token.scan s.toList
  if limit < tokens.length then .error (.tooManyTokens limit) else .ok tokens

end Markup
end ComponentMarkup
