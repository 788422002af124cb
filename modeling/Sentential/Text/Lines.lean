/-!
# Lines of a text

Two readings of the lines of a text. `streamLines` reads a stream: a line ends at a line feed, at a
carriage return, or at a carriage return followed by a line feed. `textLines` reads the contents of
a file: after its line ends are unified as well (`unifyLineEnds`), a line ends at any of the
boundaries recognised by `isLineBoundary`, among them the form feed and the line and paragraph
separators. In both readings a boundary at the end of the text opens no further line.
-/

namespace Sentential.Text

/-- Each carriage return, with a line feed after it if there is one, becomes one line feed. -/
def unifyLineEnds : List Char → List Char
  | '\r' :: '\n' :: rest => '\n' :: unifyLineEnds rest
  | '\r' :: rest => '\n' :: unifyLineEnds rest
  | c :: rest => c :: unifyLineEnds rest
  | [] => []

/-- The characters at which a line of a file ends. -/
def isLineBoundary (c : Char) : Bool :=
  c == '\n' || c == '\x0b' || c == '\x0c' || c == '\x1c' || c == '\x1d' || c == '\x1e'
    || c == '\u0085' || c == '\u2028' || c == '\u2029'

/-- The pieces between the characters that satisfy `ends`; the last piece only if it is nonempty.
`line` holds the characters of the current piece in reverse. -/
def piecesFrom (ends : Char → Bool) (line : List Char) : List Char → List (List Char)
  | [] => if line.isEmpty then [] else [line.reverse]
  | c :: rest =>
      if ends c then line.reverse :: piecesFrom ends [] rest
      else piecesFrom ends (c :: line) rest

/-- The lines of a stream. -/
def streamLines (s : String) : List String :=
  (piecesFrom (· == '\n') [] (unifyLineEnds s.toList)).map String.ofList

/-- The lines of the contents of a file. -/
def textLines (s : String) : List String :=
  (piecesFrom isLineBoundary [] (unifyLineEnds s.toList)).map String.ofList

end Sentential.Text
