import SourceArchive.Pattern.Basic

/-!
# Writing patterns

Short names for the patterns that the library's scans are made of.
-/

namespace SourceArchive

namespace Pattern

def sequence : List Pattern → Pattern
  | [] => empty
  | [p] => p
  | p :: ps => seq p (sequence ps)

/-- The first of the patterns that fits. -/
def oneOf : List Pattern → Pattern
  | [] => one .none
  | [p] => p
  | p :: ps => alt p (oneOf ps)

def lit (t : Text) : Pattern := sequence (t.map fun c => one (.only c))

def litAnyCase (t : Text) : Pattern := sequence (t.map fun c => one (.folded (.only c)))

def anyOf (t : Text) : Pattern := one (.anyOf t)

def noneOf (t : Text) : Pattern := one (.noneOf t)

def capital : Pattern := one (.range 'A' 'Z')

def wordChar : Pattern := one .word

/-- Any number of rounds, as many as possible. -/
def many (p : Pattern) : Pattern := star true p

def many1 (p : Pattern) : Pattern := seq p (many p)

def optional (p : Pattern) : Pattern := alt p empty

def blanks : Pattern := many (one .blank)

def blanks1 : Pattern := many1 (one .blank)

def word : Pattern := many1 wordChar

def quote : Pattern := anyOf "'\""

def anyQuote : Pattern := anyOf "'\"\x60"

end Pattern

end SourceArchive
