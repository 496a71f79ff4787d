import ComponentMarkup.Message
import ComponentMarkup.Registry.Loading

/-!
# The command line

The command compiles one input, a file or the standard input, or answers line by
line when no input is named.  This module reads the arguments and decides what is
written where; it touches no file itself.
-/

namespace ComponentMarkup
namespace CommandLine

/-! ## Arguments -/

structure Options where
  /-- The file of the registry. -/
  registry : Option String := none
  /-- Whether the input is a JSON body whose message is compiled. -/
  payload : Bool := false
  /-- Whether the styles are left out. -/
  htmlOnly : Bool := false
  /-- The input, or none for the shell. -/
  input : Option String := none
deriving DecidableEq

inductive UsageError where
  | unknownOption (argument : String)
  | missingValue (argument : String)
  | unexpectedValue (argument : String)
  | repeated (argument : String)
  | conflict
deriving DecidableEq

def UsageError.message : UsageError → String
  | .unknownOption argument => s!"unexpected argument '{argument}'"
  | .missingValue argument => s!"a value is required for '{argument}'"
  | .unexpectedValue argument => s!"no value is allowed for '{argument}'"
  | .repeated argument => s!"'{argument}' cannot be used more than once"
  | .conflict => "'--html-only' cannot be used with '--payload'"

namespace Options

def setRegistry (o : Options) (path : String) : Except UsageError Options :=
  if path.isEmpty then .error (.missingValue "--registry")
  else if o.registry.isSome then .error (.repeated "--registry")
  else .ok { o with registry := some path }

def setInput (o : Options) (path : String) : Except UsageError Options :=
  if path.isEmpty then .error (.missingValue "INPUT")
  else if o.input.isSome then .error (.unknownOption path)
  else .ok { o with input := some path }

/-- Whether an argument is an option and not a value; a single dash is a value. -/
def isOption (argument : String) : Bool :=
  "-".toList.isPrefixOf argument.toList && argument != "-"

def setOption (o : Options) (argument : String) : Except UsageError Options :=
  if argument = "--payload" then
    if o.payload then .error (.repeated argument) else .ok { o with payload := true }
  else if argument = "--html-only" then
    if o.htmlOnly then .error (.repeated argument) else .ok { o with htmlOnly := true }
  else if "--registry=".toList.isPrefixOf argument.toList then
    o.setRegistry (String.ofList (argument.toList.drop "--registry=".length))
  else if "--payload=".toList.isPrefixOf argument.toList then
    .error (.unexpectedValue "--payload")
  else if "--html-only=".toList.isPrefixOf argument.toList then
    .error (.unexpectedValue "--html-only")
  else .error (.unknownOption argument)

/-- Take the arguments behind `--`, which are all values. -/
def takeValues (o : Options) : List String → Except UsageError Options
  | [] => .ok o
  | argument :: rest => do
      let o ← o.setInput argument
      takeValues o rest

def take (o : Options) : List String → Except UsageError Options
  | [] => .ok o
  | "--" :: rest => o.takeValues rest
  | ["--registry"] => .error (.missingValue "--registry")
  | "--registry" :: path :: rest =>
      if isOption path then .error (.missingValue "--registry")
      else do
        let o ← o.setRegistry path
        take o rest
  | argument :: rest => do
      let o ← if isOption argument then o.setOption argument else o.setInput argument
      take o rest

/-- The options that some arguments ask for.  Without the option `--registry` the
registry is the one that the environment names. -/
def ofArguments (arguments : List String) (environment : Option String) :
    Except UsageError Options := do
  let o ← take {} arguments
  if o.payload && o.htmlOnly then .error .conflict
  else
    match o.registry, environment with
    | none, some path => o.setRegistry path
    | _, _ => return o

end Options

/-! ## Files -/

inductive ReadError where
  | missing
  | forbidden
  /-- A part of the path that must be a directory is none. -/
  | notDirectory
  | isDirectory
  | notText
  | other (cause : String)
deriving DecidableEq

def ReadError.message : ReadError → String
  | .missing => "No such file or directory (os error 2)"
  | .forbidden => "Permission denied (os error 13)"
  | .notDirectory => "Not a directory (os error 20)"
  | .isDirectory => "Is a directory (os error 21)"
  | .notText => "stream did not contain valid UTF-8"
  | .other cause => cause

/-- The text that some bytes are, if they are UTF-8. -/
def textOfBytes (bytes : ByteArray) : Except ReadError String :=
  match String.fromUTF8? bytes with
  | some text => .ok text
  | none => .error .notText

/-- Whether a path means the standard input: a dash, however the path is
written. -/
def isStandardInput (path : String) : Bool :=
  match path.splitOn "/" with
  | "-" :: rest => rest.all fun part => part == "" || part == "."
  | _ => false

/-! ## Answers -/

structure Result where
  code : Nat
  out : String
  err : String
deriving DecidableEq

def failure (message : String) : Result :=
  ⟨1, "", message ++ "\n"⟩

def loadRegistry (path : String) (content : Except ReadError String) :
    Except RegistryError Registry :=
  match content with
  | .ok text => Registry.ofJson text
  | .error cause => .error (.unreadable path cause.message)

/-- The output for one input, or the text of its error. -/
def answer (o : Options) (c : Compiler) (text : String) : Except String String :=
  if o.payload then
    match Message.compileBody c text with
    | .ok body => .ok (body.getD text)
    | .error cause => .error cause.message
  else
    match c.compile text with
    | .ok document => .ok (if o.htmlOnly then document.html else document.render)
    | .error cause => .error cause.message

def runInput (o : Options) (c : Compiler) (path : String)
    (content : Except ReadError String) : Result :=
  match content with
  | .error cause => failure s!"Error reading {path}: {cause.message}"
  | .ok text =>
      match answer o c text with
      | .ok output => ⟨0, output ++ "\n", ""⟩
      | .error message => failure ("Error: " ++ message)

/-! ## The shell -/

def greeting (components : Nat) : String :=
  s!"Canvas Components\n{components} component(s) loaded. " ++
    "Type markup to compile, Ctrl+D to exit.\n\n"

def prompt : String :=
  "> "

def farewell : String :=
  "\n"

/-- What the shell answers to a line; a blank line has no answer. -/
def reply (o : Options) (c : Compiler) (line : String) : String :=
  if line.toList.all Text.isBlank then ""
  else
    match answer o c line with
    | .ok output => output ++ "\n"
    | .error message => "Error: " ++ message ++ "\n"

/-- The line that some characters are, last first, if it was ended by a line feed:
a carriage return before the line feed belongs to the end. -/
def endedLine (reversed : List Char) : String :=
  match reversed with
  | '\r' :: rest => String.ofList rest.reverse
  | rest => String.ofList rest.reverse

/-- The lines of a text behind the lines read so far and the characters of the
line being read, both last first. -/
def linesOnto (seen : List String) (current : List Char) : List Char → List String
  | [] =>
      if current.isEmpty then seen.reverse
      else (String.ofList current.reverse :: seen).reverse
  | '\n' :: rest => linesOnto (endedLine current :: seen) [] rest
  | c :: rest => linesOnto seen (c :: current) rest

def lines (text : String) : List String :=
  linesOnto [] [] text.toList

def transcript (o : Options) (c : Compiler) (text : String) : String :=
  let answers := (lines text).foldl (fun out line => out ++ prompt ++ reply o c line) ""
  greeting c.registry.size ++ answers ++ prompt ++ farewell

/-! ## The command -/

/-- Run the command where files are read by `read` and the standard input is
`input`. -/
def run (o : Options) (read : String → Except ReadError String) (input : String) : Result :=
  let loaded : Except RegistryError Registry :=
    match o.registry with
    | none => .ok Registry.empty
    | some path => loadRegistry path (read path)
  match loaded with
  | .error cause => failure ("Error: " ++ cause.message)
  | .ok registry =>
      let c : Compiler := { registry := registry }
      match o.input with
      | none => ⟨0, transcript o c input, ""⟩
      | some path =>
          runInput o c path (if isStandardInput path then .ok input else read path)

end CommandLine
end ComponentMarkup
