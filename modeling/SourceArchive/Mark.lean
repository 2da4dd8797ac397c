import SourceArchive.Archive.Section
import SourceArchive.Pattern.Build
import SourceArchive.Pattern.Search

/-!
# Structural marks

A mark is a comment line that says which part of a file begins.  In each section every mark is set at most once,
above the first line that calls for it; some marks are set only inside a component, that is once the component
mark has been set.
-/

namespace SourceArchive

/-- The kinds of marks, in the order in which a line is tried for them. -/
inductive Mark where
  | imports
  | types
  | constants
  | component
  | state
  | effects
  | handlers
  | api
  | render
  | exports
deriving Repr, DecidableEq

namespace Mark

def all : List Mark :=
  [imports, types, constants, component, state, effects, handlers, api, render, exports]

def title : Mark → Text
  | imports => "Imports & Dependencies"
  | types => "Types & Interfaces"
  | constants => "Constants & Configuration"
  | component => "Component Definition"
  | state => "State Management"
  | effects => "Hooks & Effects"
  | handlers => "Event Handlers"
  | api => "API Calls & Data Fetching"
  | render => "Main Render"
  | exports => "Exports"

def needsComponent : Mark → Bool
  | state | effects | handlers | api | render => true
  | _ => false

section Patterns

open Pattern

def maybeExport : Pattern := optional (sequence [lit "export", blanks1])

def maybeConst : Pattern := optional (sequence [lit "const", blanks1])

def constant : Pattern := sequence [
  assert .textStart, maybeExport, lit "const", blanks1,
  one (.union (.range 'A' 'Z') (.only '_')), many1 (one (.union (.range 'A' 'Z') (.only '_')))]

def defaultFunction : Pattern := sequence [
  assert .textStart, lit "export", blanks1, lit "default", blanks1, lit "function", blanks1, word]

def capitalizedFunction : Pattern := sequence [
  assert .textStart, maybeExport, lit "function", blanks1, capital, many wordChar]

def capitalizedConstant : Pattern := sequence [
  assert .textStart, maybeExport, lit "const", blanks1, capital, many wordChar]

/-- A binding whose name begins like that of an event handler. -/
def handler : Pattern := sequence [
  assert .textStart, maybeConst, oneOf [sequence [lit "handle", capital], sequence [lit "on", capital]],
  many wordChar, blanks, lit "="]

/-- A binding of a function whose name begins with a verb of data access, in any case. -/
def dataFunction : Pattern := sequence [
  assert .textStart, optional (sequence [litAnyCase "const", blanks1]),
  oneOf [litAnyCase "fetch", litAnyCase "load", litAnyCase "get", litAnyCase "post", litAnyCase "create",
    litAnyCase "update", litAnyCase "delete", litAnyCase "save", litAnyCase "submit"],
  word, blanks, lit "=", blanks, optional (sequence [litAnyCase "async", blanks]), lit "("]

/-- The return of markup, or a return whose value begins on the next line. -/
def renderReturn : Pattern := sequence [
  assert .textStart, lit "return", blanks,
  oneOf [sequence [optional (lit "("), blanks, assert .textEnd], lit "(<"]]

end Patterns

/-- Whether a trimmed line calls for a mark, when the marks `seen` have been set. -/
def callsFor (seen : List Mark) (line : Text) : Mark → Bool
  | imports =>
    line.startsWith "import " || line.startsWith "from "
      || (line.startsWith "const " && line.contains "require(")
      || line.startsWith "'use client'" || line.startsWith "\"use client\""
  | types =>
    ["interface ", "type ", "export interface", "export type ", "enum "].any fun start => line.startsWith start
  | constants => !seen.contains component && constant.occursIn line && !line.contains "useState"
  | component =>
    defaultFunction.occursIn line || capitalizedFunction.occursIn line
      || (capitalizedConstant.occursIn line
        && (line.contains "=>" || line.contains ": React" || line.contains "FC"))
  | state => line.contains "useState(" || line.contains "useReducer("
  | effects => line.startsWith "useEffect(" || line.startsWith "useEffect ("
  | handlers => handler.occursIn line
  | api => dataFunction.occursIn line
  | render => renderReturn.occursIn line
  | exports =>
    line == ("export default" : Text)
      || (line.startsWith "export default " && !line.contains "function")
      || line.startsWith "module.exports"

/-- Whether a trimmed line takes no marks: it is blank or a comment. -/
def isPassive (line : Text) : Bool :=
  line.isEmpty || line.startsWith "//" || line.startsWith "/*" || line.startsWith "*"

def mayFollow (seen : List Mark) (m : Mark) : Bool :=
  !seen.contains m && (!m.needsComponent || seen.contains component)

/-- Tries a trimmed line for marks in turn: the marks that it sets. -/
def newAmong (seen : List Mark) (line : Text) : List Mark → List Mark
  | [] => []
  | m :: rest =>
    if mayFollow seen m && callsFor seen line m then m :: newAmong (seen ++ [m]) line rest
    else newAmong seen line rest

def ofLine (seen : List Mark) (line : Text) : List Mark :=
  let trimmed := line.trim
  if isPassive trimmed then [] else newAmong seen trimmed all

/-- The lines of a mark: a blank line, except for imports, and the title. -/
def lines (m : Mark) : List Text :=
  (if m = imports then [] else [[]]) ++ [Layout.markStart ++ " " ++ m.title]

/-- The lines of a section, each with the marks that it sets above it. -/
def markLines (seen : List Mark) : List Text → List Text
  | [] => []
  | line :: rest =>
    let new := ofLine seen line
    new.flatMap lines ++ line :: markLines (seen ++ new) rest

/-- An archive with marks.  The preamble and the marker lines stay as they are, and every section starts without
marks. -/
def archive (text : Text) : Text :=
  let (preamble, chunks) := Chunk.cut text.lines
  let marked := Text.joinLines (preamble ++ chunks.flatMap fun c => c.marker :: markLines [] c.lines)
  if text.getLast? = some '\n' then marked ++ ['\n'] else marked

end Mark

end SourceArchive
