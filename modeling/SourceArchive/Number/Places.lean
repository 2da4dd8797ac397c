import SourceArchive.Number.Binary64
import SourceArchive.Text.Basic

/-!
# Numbers with one place

Percentages are written with one place behind the point.  The exact value is rounded, a half to the even
neighbour.
-/

namespace SourceArchive

/-- A nonnegative number with one place behind the point. -/
def onePlace (x : Rat) : Text :=
  let tenths := divNearest (x.num.natAbs * 10) x.den
  decimal (tenths / 10) ++ "." ++ decimal (tenths % 10)

end SourceArchive
