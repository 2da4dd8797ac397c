import SourceArchive.Archive.Pack
import SourceArchive.Archive.Path
import SourceArchive.Files.IgnoreRule

/-!
# The source files of a directory

The files of a source kind below a directory go into an archive, in the order of their locations.  Neither the
output of builds nor installed packages are taken, nor hidden entries, nor what the ignore rules say, and a
directory that is not taken is not entered.
-/

namespace SourceArchive

def skippedNames : List Text := ["node_modules", ".next", "dist", ".git", "build"]

def isHidden (name : Text) : Bool := name.startsWith "."

def Location.le : Location → Location → Bool
  | [], _ => true
  | _ :: _, [] => false
  | a :: as, b :: bs => if a = b then Location.le as bs else a.le b

namespace FileTree

/-- Whether an entry is taken, as far as its own name and the rules about it say.  Rules may keep hidden
entries. -/
def takes (rules : List IgnoreRules) (l : Location) (isDirectory : Bool) : Bool :=
  let name := l.getLastD []
  !skippedNames.contains name &&
    match rules.findSome? (IgnoreRules.decide? · l isDirectory) with
    | some .ignored => false
    | some .kept => true
    | none => !isHidden name

/-- Whether a walk from a directory reaches a file: the file and every directory on the way are taken. -/
def reaches (rules : List IgnoreRules) (directory file : Location) : Bool :=
  directory.isPrefixOf file && directory.length < file.length && takes rules file false
    && (file.above.drop (directory.length + 1)).all (takes rules · true)

def sources (t : FileTree) (directory : Location) : List Location :=
  let rules := ignoreFileNames.map t.ignoreRules
  let reached := (t.files.map (·.1)).filter (reaches rules directory)
  let written := reached.map (·.drop directory.length)
  (written.filter fun l => (SourceKind.ofPath (l.getLastD [])).isSource).mergeSort Location.le

def pathOf (l : Location) : Text := Text.join "/" l

/-- The source files below a directory that are text, in order.  Backslashes in their paths become slashes. -/
def sourceFiles (t : FileTree) (directory : Location) : List SourceFile :=
  (t.sources directory).filterMap fun l =>
    (t.text? (directory ++ l)).map fun content =>
      { path := (pathOf l).map fun c => if c = '\\' then '/' else c, content }

end FileTree

end SourceArchive
