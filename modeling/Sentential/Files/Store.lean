import Sentential.Files.Path
import Sentential.Text.Utf8

/-!
# A store of files

A `Store` is a working directory of files and empty directories, inside directories of which nothing
is known. `Store.read` follows a path component by component and returns the bytes of the file at
its end, or the reason why there is none.
-/

namespace Sentential

/-- Why a path leads to no readable file. -/
inductive AccessFault where
  | notFound
  | isDirectory
  | notDirectory
  | nameTooLong
  | denied
  /-- No file can have the path, for it holds the character NUL. -/
  | nulInPath
  deriving DecidableEq

/-- What a name in the working directory stands for. -/
inductive Entry where
  | file (bytes : List UInt8)
  | directory

/-- The entries of the working directory. -/
structure Store where
  entries : List (String × Entry)

/-- A place that a path can lead to. -/
inductive Place where
  | file (bytes : List UInt8)
  /-- The working directory. -/
  | working
  /-- An empty directory in the working directory. -/
  | subdirectory
  /-- A directory above the working directory. -/
  | outside

/-- The number of bytes that the name of a file may have. -/
def maxNameBytes : Nat := 255

/-- The number of bytes that a path must stay below. -/
def maxPathBytes : Nat := 4096

namespace Store

/-- The place of a name as seen from another place. -/
def enter (s : Store) (place : Place) (name : String) : Except AccessFault Place :=
  match place with
  | .file _ => .error .notDirectory
  | .working =>
      if name = ".." then .ok .outside
      else if maxNameBytes < name.utf8ByteSize then .error .nameTooLong
      else
        match s.entries.lookup name with
        | some (.file bytes) => .ok (.file bytes)
        | some .directory => .ok .subdirectory
        | none => .error .notFound
  | .subdirectory =>
      if name = ".." then .ok .working
      else if maxNameBytes < name.utf8ByteSize then .error .nameTooLong
      else .error .notFound
  | .outside =>
      if name = ".." then .ok .outside
      else if maxNameBytes < name.utf8ByteSize then .error .nameTooLong
      else .error .notFound

/-- The place at which a path starts. -/
def startOf : Anchor → Place
  | .working => .working
  | .root | .doubleRoot => .outside

/-- The bytes of the file that a path leads to. -/
def read (s : Store) (p : Path) : Except AccessFault (List UInt8) :=
  if p.text.toList.contains '\x00' then .error .nulInPath
  else if maxPathBytes ≤ p.text.utf8ByteSize then .error .nameTooLong
  else
    match p.components.foldlM s.enter (startOf p.anchor) with
    | .ok (.file bytes) => .ok bytes
    | .ok _ => .error .isDirectory
    | .error fault => .error fault

end Store

end Sentential
