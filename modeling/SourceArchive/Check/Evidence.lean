import SourceArchive.Archive.Layout
import SourceArchive.Pattern.Build
import SourceArchive.Pattern.Search
import SourceArchive.Settings.Checking
import SourceArchive.Text.Identifier

/-!
# Evidence in code

What the checks look for in the code of a section.  These scans are independent of those that wrote the
annotation.
-/

namespace SourceArchive

namespace Evidenced

open Pattern

def stateDeclaration : Pattern := sequence [
  lit "const", blanks1, lit "[", blanks, word, blanks, lit ",", blanks, word, blanks, lit "]", blanks, lit "=",
  blanks, optional (lit "React."), lit "use", oneOf [lit "State", lit "Reducer"], assert .wordEdge]

def fetchOfString : Pattern := sequence [assert .wordEdge, lit "fetch", blanks, lit "(", blanks, anyQuote]

/-- A direct use of a context, captured as 1. -/
def contextUse : Pattern := sequence [lit "useContext", blanks, lit "(", blanks, capture 1 word, blanks, lit ")"]

def destructuredParameters : Pattern := sequence [
  lit "function", blanks1, word, blanks, lit "(", blanks, lit ['{'], many1 (noneOf ['}']), lit ['}']]

def propsDeclaration : Pattern := sequence [
  oneOf [lit "interface", lit "type"], blanks1, many wordChar, lit "Props", many wordChar, blanks,
  optional (lit "="), blanks, lit ['{']]

def stateDeclarations (code : Text) : Nat := (stateDeclaration.matchesIn code).length

/-- How many entries follow in a list, counting one more at each comma outside brackets.  An arrow closes no
bracket.  The depth may fall below zero; it is unbounded where a counter of 32 bits is meant, which a value would have to
hold 2^31 brackets to leave. -/
def entriesFrom (depth : Int) (previous : Option Char) : Text → Nat
  | [] => 1
  | c :: r =>
    if c = '(' ∨ c = '[' ∨ c = '{' ∨ c = '<' then entriesFrom (depth + 1) (some c) r
    else if c = '>' ∧ previous = some '=' then entriesFrom depth (some c) r
    else if c = ')' ∨ c = ']' ∨ c = '}' ∨ c = '>' then entriesFrom (depth - 1) (some c) r
    else if c = ',' ∧ depth = 0 then entriesFrom depth (some c) r + 1
    else entriesFrom depth (some c) r

def listedEntries (value : Text) : Nat :=
  let inner := dropBrackets value.trim
  if inner.trim.isEmpty ∨ value.trim = Layout.noneListed then 0 else entriesFrom 0 none inner
where
  /-- A text without the opening brackets in front and the closing brackets behind. -/
  dropBrackets (t : Text) : Text :=
    ((t.dropWhile (· == '[')).reverse.dropWhile (· == ']')).reverse

def stringFetches (code : Text) : Nat := (fetchOfString.matchesIn code).length

def inWord (c : Char) : Bool := isAlphanumeric c || c == '_'

/-- Whether a name is called somewhere, standing on a word boundary. -/
def calls (code name : Text) : Bool :=
  (code.occurrences name).any fun o => !o.previous.any inWord && o.behind.trimStart.startsWith "("

/-- The contexts that code uses: directly, then through an accessor, each once. -/
def contexts (accessors : List Accessor) (code : Text) : List Text :=
  let direct := (contextUse.matchesIn code).map (·.group 1)
  distinct (direct ++ (accessors.filter fun a => calls code a.accessor).map (·.context))

def hasProps (code : Text) : Bool := destructuredParameters.occursIn code || propsDeclaration.occursIn code

def keywordHits (lower : Text) (keywords : List Text) : Nat := (keywords.filter lower.contains).length

/-- Whether a word occurs between characters that are not of words. -/
def hasWord (t word : Text) : Bool :=
  !word.isEmpty &&
    (t.occurrences word).any fun o => !o.previous.any inWord && !o.behind.head?.any inWord

end Evidenced

end SourceArchive
