import SourceArchive.Archive.Layout

/-!
# Packing

An archive is made of source files: for each a marker between separators, the content, and an empty line.
-/

namespace SourceArchive

structure SourceFile where
  path : Text
  content : Text
deriving Repr, DecidableEq

def withLineFeed (t : Text) : Text := if t.getLast? = some '\n' then t else t ++ ['\n']

namespace SourceFile

def header (f : SourceFile) : List Text :=
  [Layout.separatorLine, Layout.fileMarker ++ " " ++ f.path, Layout.separatorLine]

def entry (f : SourceFile) : Text := Text.endLines f.header ++ withLineFeed f.content ++ ['\n']

end SourceFile

/-- The archive of files, in their order. -/
def pack (files : List SourceFile) : Text := files.flatMap (·.entry)

end SourceArchive
