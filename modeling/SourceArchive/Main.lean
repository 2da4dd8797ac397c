import SourceArchive.Command.Run

/-!
# The command line

The program on the files of the machine.  A directory is loaded as a file tree, with the ignore files of the
directories above it, and everything else is left to the library.
-/

namespace SourceArchive

namespace Machine

def readBytes? (path : String) : IO (Option ByteArray) :=
  try return some (← IO.FS.readBinFile path) catch _ => return none

def succeeds (action : IO Unit) : IO Bool :=
  try
    action
    return true
  catch _ => return false

def entriesOf (entry : IO.FS.DirEntry) : IO (Array IO.FS.DirEntry) :=
  try entry.path.readDir catch _ => return #[]

/-- A tree with what lies below an entry, whose location is given.  Entries that are never taken are not
entered, and links are not followed. -/
partial def load (t : FileTree) (l : Location) (entry : IO.FS.DirEntry) : IO FileTree := do
  match (← entry.path.symlinkMetadata).type with
  | .dir =>
    let mut t := t.addDirectory l
    for inner in ← entriesOf entry do
      if !skippedNames.contains inner.fileName.toList then t ← load t (l ++ [inner.fileName.toList]) inner
    return t
  | .file =>
    match ← readBytes? entry.path.toString with
    | none => return t
    | some bytes => return t.put l bytes
  | _ => return t

/-- A tree with the ignore files in the directories above a location. -/
def loadIgnoreFiles (t : FileTree) (l : Location) : IO FileTree := do
  let mut t := t
  for directory in l.above do
    for name in ignoreFileNames do
      let file := directory ++ [name]
      if let some bytes ← readBytes? (String.ofList ('/' :: FileTree.pathOf file)) then t := t.put file bytes
  return t

def sourceFiles (path : Text) : IO (Option (List SourceFile)) := do
  try
    let root ← IO.FS.realPath (String.ofList path)
    if !(← root.isDir) then return none
    let l : Location := (Text.splitAt '/' root.toString.toList).filter (!·.isEmpty)
    let t ← loadIgnoreFiles {} l
    return some ((← load t l ⟨root, "."⟩).sourceFiles l)
  catch _ => return none

end Machine

instance : Workspace IO where
  read path := do return (← Machine.readBytes? (String.ofList path)).bind Text.ofBytes?
  write path text := Machine.succeeds (IO.FS.writeBinFile (String.ofList path) text.toBytes)
  makeDirectories path := Machine.succeeds (IO.FS.createDirAll (String.ofList path))
  sourceFiles path := Machine.sourceFiles path

end SourceArchive

open SourceArchive

def main (args : List String) : IO UInt32 := do
  let outcome ← execute (args.map String.toList)
  match outcome with
  | .done output => IO.print (String.ofList output)
  | .failed fault =>
    IO.eprintln ("Error: " ++ String.ofList fault.message)
    if let some cause := fault.cause? then IO.eprintln ("\nCaused by:\n    " ++ String.ofList cause)
  | .misused => IO.eprint (String.ofList helpText)
  return UInt32.ofNat outcome.exitCode
