/-!
# Paths

A `Path` is a sequence of components, taken from the root or from the working directory. Reading one
from text drops empty components and the component `.`, and keeps `..`. Exactly two slashes at the
start are kept as they are.
-/

namespace Sentential

/-- The place from which a path starts. -/
inductive Anchor where
  | working
  | root
  /-- The root, written with two slashes. -/
  | doubleRoot
  deriving DecidableEq

/-- The written form of an anchor. -/
def Anchor.text : Anchor → String
  | .working => ""
  | .root => "/"
  | .doubleRoot => "//"

/-- A starting place and the components from there. -/
structure Path where
  anchor : Anchor
  components : List String
  deriving DecidableEq

namespace Path

/-- The pieces between slashes; `piece` holds the characters of the current one in reverse. -/
def pieces (piece : List Char) : List Char → List (List Char)
  | [] => [piece.reverse]
  | c :: rest => if c = '/' then piece.reverse :: pieces [] rest else pieces (c :: piece) rest

/-- The anchor of a written path. -/
def anchorOf : List Char → Anchor
  | '/' :: '/' :: '/' :: _ => .root
  | '/' :: '/' :: _ => .doubleRoot
  | '/' :: _ => .root
  | _ => .working

/-- Reads a written path. -/
def ofString (s : String) : Path :=
  let cs := s.toList
  ⟨anchorOf cs, ((pieces [] cs).filter fun p => p ≠ [] ∧ p ≠ ['.']).map String.ofList⟩

/-- The written form of a path; the empty path is a point. -/
def text (p : Path) : String :=
  match p.anchor, p.components with
  | .working, [] => "."
  | anchor, components => anchor.text ++ "/".intercalate components

end Path

end Sentential
