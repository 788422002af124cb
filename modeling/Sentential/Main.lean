import Sentential.CommandLine.Program

/-!
# The command line program

`main` reads standard input or the formula file as far as the command line asks for them, and hands
everything else to `CommandLine.execute`.
-/

namespace Sentential.Main

open CommandLine

/-- The reason for which the operating system refused to read a file. Its code for a file in the
place of a directory is 20, with either sign. -/
def accessFault : IO.Error → AccessFault
  | .inappropriateType _ code _ =>
      if code = 20 ∨ code + 20 = 0 then .notDirectory else .isDirectory
  | .invalidArgument .. => .nameTooLong
  | .permissionDenied .. => .denied
  | _ => .notFound

/-- The bytes of a file. -/
def readBytes (path : Path) : IO (Except AccessFault (List UInt8)) := do
  try
    let bytes ← IO.FS.readBinFile path.text
    pure (.ok bytes.toList)
  catch e => pure (.error (accessFault e))

/-- What the program finds around it when it runs with the given settings. -/
def environment (s : Settings) : IO Environment := do
  match s.input with
  | .formulas _ | .file none => pure ⟨"", false, fun _ => .error .notFound⟩
  | .file (some path) => do
      let contents ← readBytes path
      pure ⟨"", false, fun _ => contents⟩
  | .stdin => do pure ⟨← (← IO.getStdin).readToEnd, false, fun _ => .error .notFound⟩

end Sentential.Main

/-- Runs the program on a command line. -/
def main (argv : List String) : IO UInt32 := do
  let env ←
    match Sentential.CommandLine.readArguments argv with
    | .ok s => Sentential.Main.environment s
    | .error _ => pure ⟨"", false, fun _ => .error .notFound⟩
  let outcome := Sentential.CommandLine.execute env argv
  (← IO.getStdout).putStr outcome.stdout
  (← IO.getStderr).putStr outcome.stderr
  match outcome.ending with
  | .exit code | .early code => pure (UInt32.ofNat code)
  | .broken cause => do
      (← IO.getStderr).putStrLn cause.message
      pure 1
