import SourceArchive.Text.Utf8

/-!
# File trees

A file tree lists its files and directories by their locations, that is by the names on the way from its root.
Written paths are followed name by name: every name but the last must be that of a directory, a point stays and
two points go up, but never out of the tree.
-/

namespace SourceArchive

/-- The names on the way from the root of a tree. -/
abbrev Location := List Text

/-- The locations above a location, from the root down. -/
def Location.above (l : Location) : List Location := (List.range l.length).map l.take

structure FileTree where
  files : List (Location × ByteArray) := []
  directories : List Location := []

namespace FileTree

def isFile (t : FileTree) (l : Location) : Bool := t.files.any (·.1 == l)

/-- Whether there is a directory at a location.  The root is one, and so is what holds a file. -/
def isDirectory (t : FileTree) (l : Location) : Bool :=
  l.isEmpty || t.directories.contains l || t.files.any fun (file, _) => file != l && l.isPrefixOf file

def bytes? (t : FileTree) (l : Location) : Option ByteArray := t.files.lookup l

def text? (t : FileTree) (l : Location) : Option Text := (t.bytes? l).bind Text.ofBytes?

/-- A tree with a file; one that was there is replaced. -/
def put (t : FileTree) (l : Location) (bytes : ByteArray) : FileTree :=
  if t.isFile l then { t with files := t.files.map fun f => if f.1 = l then (l, bytes) else f }
  else { t with files := t.files ++ [(l, bytes)] }

def addDirectory (t : FileTree) (l : Location) : FileTree :=
  if t.isDirectory l then t else { t with directories := t.directories ++ [l] }

/-- One step from a directory: none if the step leaves the tree. -/
def step? (l : Location) (name : Text) : Option Location :=
  if name.isEmpty ∨ name = "." then some l
  else if name = ".." then (if l.isEmpty then none else some l.dropLast)
  else some (l ++ [name])

/-- Where names lead from a directory.  All but the last must lead to directories. -/
def follow (t : FileTree) (l : Location) : List Text → Option Location
  | [] => some l
  | [name] => step? l name
  | name :: rest =>
    match step? l name with
    | none => none
    | some next => if t.isDirectory next then t.follow next rest else none

/-- Where a written path leads.  What it leads to need not exist. -/
def locate? (t : FileTree) (path : Text) : Option Location :=
  if path.isEmpty ∨ path.startsWith "/" then none else t.follow [] (Text.splitAt '/' path)

/-- A tree in which names lead to directories, and where they lead; missing directories are made. -/
def makeDirectories (t : FileTree) (l : Location) : List Text → Option (FileTree × Location)
  | [] => some (t, l)
  | name :: rest =>
    match step? l name with
    | none => none
    | some next => if t.isFile next then none else (t.addDirectory next).makeDirectories next rest

def read? (t : FileTree) (path : Text) : Option Text := (t.locate? path).bind t.text?

/-- A tree with a text written to where a path leads: a file, or nothing in a directory that exists. -/
def write? (t : FileTree) (path text : Text) : Option FileTree := do
  let l ← t.locate? path
  if t.isDirectory l then none else some (t.put l text.toBytes)

end FileTree

end SourceArchive
