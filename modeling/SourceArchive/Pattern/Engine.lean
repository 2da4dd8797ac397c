import SourceArchive.Pattern.Reader
import SourceArchive.Pattern.Search

/-!
# Engines for written patterns

Written patterns are compiled by an engine, which says of a text whether it is a pattern and, if so, in which texts the pattern
occurs.  All that is done with keyword patterns is done for any engine.  The command line uses the one of this library.
-/

namespace SourceArchive

/-- What compiles written patterns: a pattern is known by the texts that it occurs in. -/
structure PatternEngine where
  compile : Text → Except PatternFault (Text → Bool)

/-- The engine that reads a pattern and then looks for it from the left, with a preference among the ways to match. -/
def PatternEngine.backtracking : PatternEngine where
  compile t := (Pattern.read t).map Pattern.occursIn

end SourceArchive
