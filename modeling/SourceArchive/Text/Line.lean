import SourceArchive.Text.Blank

/-!
# Lines

A line ends at a line feed, and one carriage return directly before the line feed belongs to the line end.  A
last line that no line feed ends keeps its carriage return; it is a line only if it is not empty.
-/

namespace SourceArchive

namespace Text

/-- A line without the carriage return at its end. -/
def dropReturn (line : Text) : Text :=
  match line.reverse with
  | '\r' :: r => r.reverse
  | _ => line

def linesOfPieces : List Text → List Text
  | [] => []
  | [last] => if last.isEmpty then [] else [last]
  | piece :: rest => dropReturn piece :: linesOfPieces rest

def lines (t : Text) : List Text := linesOfPieces (splitAt '\n' t)

def joinLines (ls : List Text) : Text := join ['\n'] ls

/-- The lines, each ended by a line feed. -/
def endLines (ls : List Text) : Text := ls.flatMap (· ++ ['\n'])

end Text

end SourceArchive
