import SourceArchive.Files.Sources

/-!
# Workspaces

Commands see files through four operations.  A file tree that changes as the commands go on is a workspace; so is
any place that offers the operations.
-/

namespace SourceArchive

/-- The operations on files that commands need.  Paths are as written by the user. -/
class Workspace (m : Type → Type) where
  /-- The text of a file; none if there is no such file or it is no text. -/
  read : Text → m (Option Text)
  /-- Writes a text to a file, and says whether that was possible. -/
  write : Text → Text → m Bool
  makeDirectories : Text → m Bool
  /-- The source files below a directory; none if there is no such directory. -/
  sourceFiles : Text → m (Option (List SourceFile))

namespace FileTree

def sourceFilesAt? (t : FileTree) (path : Text) : Option (List SourceFile) := do
  let l ← t.locate? path
  if t.isDirectory l then some (t.sourceFiles l) else none

def withDirectory? (t : FileTree) (path : Text) : Option FileTree :=
  if path.isEmpty ∨ path.startsWith "/" then none
  else (t.makeDirectories [] (Text.splitAt '/' path)).map (·.1)

/-- Changes the tree if that is possible, and says whether it was. -/
def change (step : FileTree → Option FileTree) : StateM FileTree Bool := do
  match step (← get) with
  | none => return false
  | some t =>
    set t
    return true

instance : Workspace (StateM FileTree) where
  read path := do return (← get).read? path
  write path text := change (·.write? path text)
  makeDirectories path := change (·.withDirectory? path)
  sourceFiles path := do return (← get).sourceFilesAt? path

end FileTree

end SourceArchive
