import SourceArchive.Archive.Path
import SourceArchive.Pattern.Build
import SourceArchive.Pattern.Search

/-!
# What the rules look at

Rules see a file through a few views of its path, its code and the kind of its name.  Path fragments are looked
for in the lowercase path behind a slash, so that top-level directories count as directories.
-/

namespace SourceArchive

structure Evidence where
  /-- The lowercase path, with a slash in front. -/
  path : Text
  /-- The file name as written. -/
  file : Text
  name : Text
  /-- The lowercase file name up to its first dot. -/
  stem : Text
  code : Text
  kind : SourceKind
deriving Repr, DecidableEq

namespace Evidence

def rooted (lower : Text) : Text := if lower.startsWith "/" then lower else '/' :: lower

def of (path code : Text) : Evidence :=
  let file := fileName path
  let name := file.lowercase
  { path := rooted path.lowercase, file, name, stem := name.takeWhile (· != '.'), code,
    kind := .ofPath name }

def pathHas (e : Evidence) (fragment : Text) : Bool := e.path.contains fragment

def pathHasAny (e : Evidence) (fragments : List Text) : Bool := fragments.any e.pathHas

def codeHas (e : Evidence) (part : Text) : Bool := e.code.contains part

def inApiDirectory (e : Evidence) : Bool := e.pathHas "/api/"

end Evidence

end SourceArchive
