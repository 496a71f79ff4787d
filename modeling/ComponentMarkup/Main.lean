import ComponentMarkup.CommandLine

/-!
# The program

The command with real files and streams.
-/

namespace ComponentMarkup
namespace CommandLine

/-- The reason for which the system refuses to read a file. -/
def ReadError.ofSystem : IO.Error → ReadError
  | .noFileOrDirectory .. => .missing
  | .permissionDenied .. => .forbidden
  | .inappropriateType _ 21 _ => .isDirectory
  | .inappropriateType .. => .notDirectory
  | cause => .other (toString cause)

def readText (path : String) : IO (Except ReadError String) := do
  try
    return textOfBytes (← IO.FS.readBinFile path)
  catch cause =>
    return .error (.ofSystem cause)

def readStandardInput : IO (Except ReadError String) := do
  return textOfBytes (← (← IO.getStdin).readBinToEnd)

def Result.write (r : Result) : IO UInt32 := do
  (← IO.getStdout).putStr r.out
  (← IO.getStderr).putStr r.err
  return UInt32.ofNat r.code

/-- Answer line by line until the input ends. -/
partial def shell (o : Options) (c : Compiler) : IO Unit := do
  let out ← IO.getStdout
  out.putStr prompt
  out.flush
  let line ← (← IO.getStdin).getLine
  if line.isEmpty then out.putStr farewell
  else
    for text in lines line do
      out.putStr (reply o c text)
    shell o c

def runProgram (o : Options) : IO UInt32 := do
  let loaded ← match o.registry with
    | none => pure (.ok Registry.empty)
    | some path => loadRegistry path <$> readText path
  match loaded with
  | .error cause => (failure ("Error: " ++ cause.message)).write
  | .ok registry =>
      let c : Compiler := { registry := registry }
      match o.input with
      | none =>
          (← IO.getStdout).putStr (greeting registry.size)
          shell o c
          return 0
      | some path =>
          let content ←
            if isStandardInput path then readStandardInput else readText path
          (runInput o c path content).write

end CommandLine
end ComponentMarkup

open ComponentMarkup.CommandLine in
def main (arguments : List String) : IO UInt32 := do
  match Options.ofArguments arguments (← IO.getEnv "CCOMP_REGISTRY") with
  | .ok o => runProgram o
  | .error cause =>
      (← IO.getStderr).putStrLn ("error: " ++ cause.message)
      return 2
