/-!
# Ranges of code points

The properties of characters that the library consults are lists of closed ranges in ascending order, searched
by halving.  Every such property treats the first 128 code points by a rule of its own, so the tables start at
128.
-/

namespace SourceArchive

/-- Closed ranges of code points, ascending and disjoint. -/
abbrev Ranges := Array (Nat × Nat)

namespace Ranges

/-- Whether `n` lies in one of the ranges with an index in `lo ..< hi`. -/
def coversWithin (t : Ranges) (n lo hi : Nat) : Bool :=
  if _h : lo < hi then
    let mid := (lo + hi) / 2
    match t[mid]? with
    | none => false
    | some (first, last) =>
      if n < first then coversWithin t n lo mid
      else if last < n then coversWithin t n (mid + 1) hi
      else true
  else false
termination_by hi - lo

def covers (t : Ranges) (n : Nat) : Bool := t.coversWithin n 0 t.size

end Ranges

end SourceArchive
