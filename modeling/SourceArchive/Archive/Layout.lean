import SourceArchive.Text.Line

/-!
# The lines of an archive

The shapes of the lines that structure an archive.  What introduces a line is looked for after the line is
trimmed.
-/

namespace SourceArchive

namespace Layout

def fileMarker : Text := "// FILE:"

def separatorStart : Text := "// ===="

/-- The separator that is written around markers. -/
def separatorLine : Text := "// ================================================="

def flowStart : Text := "// FLOW:"

def metaStart : Text := "// META:"

def treeHeader : Text := "// DEPENDENCY TREE:"

def typeStart : Text := "// TYPE:"

def markStart : Text := "// MARK: -"

/-- The connector of a tree line that is not the last. -/
def treeBranch : Text := "├── "

def treeLast : Text := "└── "

def noneListed : Text := "[none]"

def metaFields : List Text := ["Type", "Flow", "Framework", "State", "Props", "Context", "APIs", "Dependencies"]

def vagueTypes : List Text := ["unknown", "nullable", "Array", "Object"]

def markerPath? (line : Text) : Option Text := (Text.after? line.trim fileMarker).map Text.trim

def isMarker (line : Text) : Bool := line.trim.startsWith fileMarker

def isSeparator (line : Text) : Bool := line.trim.startsWith separatorStart

/-- A list as it is written: in brackets, or as the word for none. -/
def list (items : List Text) : Text :=
  if items.isEmpty then noneListed else "[" ++ Text.join ", " items ++ "]"

/-- A line is a marker exactly if it carries a path. -/
theorem isMarker_eq_isSome (line : Text) : isMarker line = (markerPath? line).isSome := by
  rw [Bool.eq_iff_iff]
  simp only [isMarker, Text.startsWith_iff, markerPath?, Option.isSome_map, Option.isSome_iff_exists,
    Text.after?_eq_some_iff]
  exact Iff.rfl

end Layout

end SourceArchive
