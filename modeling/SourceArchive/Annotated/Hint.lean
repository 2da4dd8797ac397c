import SourceArchive.Archive.Layout
import SourceArchive.Facts.State
import SourceArchive.Text.Identifier

/-!
# Type hints

A hint is a comment with a type above the line that declares a state variable.  Hints are inserted and nothing
else is touched; each variable gives at most one hint, and each line takes the first variable that fits and has
not been used.
-/

namespace SourceArchive

namespace Hint

/-- Whether behind an occurrence of a name a comma and the setter follow, with blanks between them at will, and
the pair stands on identifier boundaries. -/
def pairsWith (setter : Text) (o : Text.Occurrence) : Bool :=
  match Text.after? o.behind.trimStart "," with
  | none => false
  | some rest =>
    match Text.after? rest.trimStart setter with
    | none => false
    | some after => !o.previous.any isIdentifierChar && !after.head?.any isIdentifierChar

def hasPair (line name setter : Text) : Bool := (line.occurrences name).any (pairsWith setter)

def mentionsState (line : Text) : Bool := line.contains "useState" || line.contains "useReducer"

/-- Whether a line may take the hint of a variable. -/
def fits (line : Text) (v : StateVariable) : Bool := hasPair line v.name v.setter

/-- The hint for a variable above a line. -/
def line (above : Text) (v : StateVariable) : Text :=
  above.indentation ++ Layout.typeStart ++ " " ++ v.type

/-- A body with the hints for the variables that have not been used. -/
def insert (unused : List StateVariable) : List Text → List Text
  | [] => []
  | l :: rest =>
    match if mentionsState l then unused.find? (fits l) else none with
    | none => l :: insert unused rest
    | some v => line l v :: l :: insert (unused.eraseP (fits l)) rest

end Hint

end SourceArchive
