import SourceArchive.Pattern.Build
import SourceArchive.Pattern.Search
import SourceArchive.Text.Identifier

/-!
# Props

The parameters of a component.  They are read from the first of three places that names any: the destructured
parameters of a function, those of an arrow function, or the members of a type whose name contains `Props`.
-/

namespace SourceArchive

namespace Props

open Pattern

/-- What stands in curly brackets, which is not empty, captured as 1. -/
def braced : Pattern := sequence [lit ['{'], capture 1 (many1 (noneOf ['}'])), lit ['}']]

def functionParameters : Pattern := sequence [
  optional (sequence [lit "export", blanks1, optional (sequence [lit "default", blanks1])]),
  optional (sequence [lit "async", blanks1]),
  lit "function", blanks1, word, blanks, lit "(", blanks, braced]

def arrowParameters : Pattern := sequence [
  optional (sequence [lit "export", blanks1]), lit "const", blanks1, word, blanks,
  optional (sequence [
    lit ":", blanks, many1 (one (.union .word (.only '.'))),
    optional (sequence [lit "<", many (noneOf ">"), lit ">"]), blanks]),
  lit "=", blanks, optional (sequence [lit "async", blanks]), lit "(", blanks, braced]

def propsType : Pattern := sequence [
  oneOf [lit "interface", lit "type"], blanks1, many wordChar, lit "Props", many wordChar, blanks,
  optional (lit "="), blanks, braced]

/-- The name of an entry: what stands before any default, type or question mark, without dots in front. -/
def entryName (entry : Text) : Text :=
  let start := Text.trim (entry.takeWhile fun c => c != '=' && c != ':' && c != '?')
  (Text.dropLeading "readonly " (Text.dropLeading "..." start)).trim

def names (entries : List Text) : List Text :=
  let written := (entries.map Text.trim).filter fun e => !e.isEmpty && !e.startsWith "//"
  distinct ((written.map entryName).filter Text.isIdentifier)

/-- The names in the first match of a pattern, whose capture is cut at the given separators. -/
def namesBy (p : Pattern) (separators code : Text) : List Text :=
  match p.firstIn code with
  | none => []
  | some m => names (Text.splitWhen (separators.elem ·) (m.group 1))

def allIn (code : Text) : List Text :=
  let ofFunction := namesBy functionParameters "," code
  if !ofFunction.isEmpty then ofFunction
  else
    let ofArrow := namesBy arrowParameters "," code
    if !ofArrow.isEmpty then ofArrow else namesBy propsType "\n;," code

end Props

end SourceArchive
