import SourceArchive.Text.Alphabetic
import SourceArchive.Text.Basic
import SourceArchive.Text.Numeric

/-!
# Characters of identifiers

Identifiers are made of letters, numbers, the underscore and the dollar sign.  Combining marks count only where
they are alphabetic, and joiners do not count.
-/

namespace SourceArchive

def isAlphanumeric (c : Char) : Bool := isAlphabetic c || isNumeric c

def isIdentifierStart (c : Char) : Bool := isAlphabetic c || c == '_' || c == '$'

def isIdentifierChar (c : Char) : Bool := isAlphanumeric c || c == '_' || c == '$'

def Text.isIdentifier : Text → Bool
  | [] => false
  | c :: r => isIdentifierStart c && r.all isIdentifierChar

end SourceArchive
