import SourceArchive.Distribution
import SourceArchive.Finding

/-!
# The checks of paths

No path may occur twice in an archive, and an annotated archive has the paths of the plain archive that it was
made from.
-/

namespace SourceArchive

namespace PathCheck

/-- An error for each path that occurs more than once, in order of first occurrence. -/
def duplicates (paths : List Text) : List Finding :=
  ((Distribution.ofList paths).entries.filter fun (_, n) => 1 < n).map fun (p, n) =>
    .error .duplicate p ("File appears " ++ decimal n ++ " times")

/-- The paths of one list that are not in another, each once. -/
def absent (paths others : List Text) : List Text := distinct (paths.filter (!others.contains ·))

def missing (plain annotated : List Text) : List Finding :=
  (absent plain annotated).map fun p => .error .missing p "In original but missing from annotated output"

def extra (plain annotated : List Text) : List Finding :=
  (absent annotated plain).map fun p => .warning .extra p "In annotated output but not in original"

end PathCheck

end SourceArchive
