import Sentential.Files.Store
import Sentential.Text.Lines
import Sentential.Text.Quoted

/-!
# Formula files

A formula file is a file of UTF-8 text whose lines hold formulas. `formulaLines` reads the lines
from the bytes of the file, and `FileFault` says why a formula file cannot be read.
-/

namespace Sentential

/-- Why a formula file cannot be read. -/
inductive FileFault where
  /-- There is no file at the path. -/
  | access (fault : AccessFault)
  /-- The bytes of the file are no UTF-8 text. -/
  | undecodable (fault : Text.Utf8.Fault)
  deriving DecidableEq

/-- The wording of a file fault for a path. -/
def FileFault.message (p : Path) : FileFault → String
  | .access .notFound => "Formula file not found: " ++ p.text
  | .access .isDirectory => unreadable ("[Errno 21] Is a directory: " ++ Text.quoted p.text)
  | .access .notDirectory => unreadable ("[Errno 20] Not a directory: " ++ Text.quoted p.text)
  | .access .nameTooLong => unreadable ("[Errno 36] File name too long: " ++ Text.quoted p.text)
  | .access .denied => unreadable ("[Errno 13] Permission denied: " ++ Text.quoted p.text)
  | .access .nulInPath => "embedded null byte"
  | .undecodable fault => unreadable fault.message
where
  /-- The wording for a file that exists, given the reason. -/
  unreadable (why : String) : String := "Could not read formula file " ++ p.text ++ ": " ++ why

/-- Whether a file fault breaks the program off instead of being reported. -/
def FileFault.endsProgram : FileFault → Bool
  | .access .nulInPath => true
  | .access _ | .undecodable _ => false

/-- The lines of a formula file, from the outcome of reading its bytes. -/
def formulaLines (contents : Except AccessFault (List UInt8)) : Except FileFault (List String) := do
  let bytes ← contents.mapError .access
  let text ← (Text.Utf8.decode bytes).mapError .undecodable
  pure (Text.textLines text)

/-- The lines of the formula file at a path of a store. -/
def Store.formulaLines (s : Store) (p : Path) : Except FileFault (List String) :=
  Sentential.formulaLines (s.read p)

end Sentential
