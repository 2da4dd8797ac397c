import SourceArchive.Pattern.Build
import SourceArchive.Pattern.Search
import SourceArchive.Settings.Checking

/-!
# Contexts

The shared contexts that code reads, directly or through an accessor.
-/

namespace SourceArchive

namespace Contexts

open Pattern

/-- A direct use; the context is captured as 1. -/
def directUse : Pattern := sequence [lit "useContext(", blanks, capture 1 word, blanks, lit ")"]

def accessorCall (accessor : Text) : Pattern := sequence [assert .wordEdge, lit accessor, blanks, lit "("]

/-- The contexts that code reads: those used directly, then those read through an accessor, each once. -/
def allIn (code : Text) : List Text :=
  let direct := (directUse.matchesIn code).map (·.group 1)
  let throughAccessor := knownAccessors.filter fun a => (accessorCall a.accessor).occursIn code
  distinct (direct ++ throughAccessor.map (·.context))

end Contexts

end SourceArchive
