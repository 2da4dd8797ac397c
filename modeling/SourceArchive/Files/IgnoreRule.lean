import SourceArchive.Files.Glob
import SourceArchive.Files.Tree
import SourceArchive.Text.Line

/-!
# Ignore rules

A directory may hold files whose lines say what is to be ignored in it and below.  Of the rules of one file the
last that fits decides; of the files of one kind that of the nearest directory decides; and the files of the first
kind decide before those of the second.
-/

namespace SourceArchive

inductive Fate where
  | ignored
  | kept
deriving Repr, DecidableEq

structure IgnoreRule where
  segments : List Glob.Segment
  directoriesOnly : Bool
  fate : Fate
deriving Repr, DecidableEq

namespace IgnoreRule

/-- A line without the blanks at its end, which an escaped space prevents. -/
def dropBlanks (line : Text) : Text := if line.endsWith "\\ " then line else line.trimEnd

/-- The pattern behind a slash at its start, and whether there is one. -/
def readAnchor (t : Text) : Bool × Text :=
  match t with
  | '/' :: rest => (true, rest)
  | _ => (false, t)

def readStart (line : Text) : Fate × Bool × Text :=
  match line with
  | '\\' :: '!' :: _ | '\\' :: '#' :: _ => (.ignored, false, line.drop 1)
  | '!' :: rest => (.kept, readAnchor rest)
  | _ => (.ignored, readAnchor line)

/-- The rule of a line, if it states one.  A pattern with a slash in it starts at the directory of the file; any
other fits in every directory below. -/
def read (line : Text) : Option IgnoreRule :=
  if line.startsWith "#" then none
  else
    let line := dropBlanks line
    if line.isEmpty then none
    else
      let (fate, anchored, pattern) := readStart line
      let directoriesOnly := pattern.endsWith "/"
      let pattern := if directoriesOnly then pattern.dropLast else pattern
      let floating := !anchored && !pattern.contains '/'
      (Glob.read pattern).map fun segments =>
        let segments := if floating then .directories :: segments else segments
        { segments := if segments.getLast? = some .directories then segments ++ [.name [.anyRun]] else segments
          directoriesOnly, fate }

def readAll (t : Text) : List IgnoreRule := t.lines.filterMap read

/-- What the last fitting rule decides about an entry, whose location is given from the directory of the file. -/
def decide? (rules : List IgnoreRule) (l : Location) (isDirectory : Bool) : Option Fate :=
  (rules.reverse.find? fun r => (isDirectory || !r.directoriesOnly) && Glob.describes r.segments l).map (·.fate)

end IgnoreRule

/-- The names of the files that hold ignore rules; the first kind decides before the second. -/
def ignoreFileNames : List Text := [".ignore", ".gitignore"]

/-- The rules of one kind: the directories that hold a file of the kind, and its rules. -/
abbrev IgnoreRules := List (Location × List IgnoreRule)

namespace FileTree

def ignoreRules (t : FileTree) (name : Text) : IgnoreRules :=
  (t.files.filter fun (l, _) => l.getLast? = some name).filterMap fun (l, bytes) =>
    (Text.ofBytes? bytes).map fun text => (l.dropLast, IgnoreRule.readAll text)

end FileTree

namespace IgnoreRules

def decide? (rules : IgnoreRules) (l : Location) (isDirectory : Bool) : Option Fate :=
  l.above.reverse.findSome? fun directory =>
    (rules.lookup directory).bind fun rs => IgnoreRule.decide? rs (l.drop directory.length) isDirectory

end IgnoreRules

end SourceArchive
