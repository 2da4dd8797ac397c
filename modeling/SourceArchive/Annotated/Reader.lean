import SourceArchive.Archive.Section

/-!
# Reading an annotated archive

The reader takes each chunk of an archive apart again: lines that state metadata on one side, all other lines on
the other.  Separators below the marker are dropped.  A dependency tree runs from its header to the first line
that is not a comment.
-/

namespace SourceArchive

structure AnnotatedSection where
  path : Text
  /-- The lines that state the flow, the metadata and the dependency tree, trimmed. -/
  metaLines : List Text
  /-- All other lines. -/
  body : List Text
deriving Repr, DecidableEq

namespace AnnotatedSection

/-- Whether a trimmed line states metadata wherever it stands. -/
def statesMetadata (trimmed : Text) : Bool :=
  trimmed.startsWith Layout.flowStart || trimmed.startsWith Layout.metaStart || trimmed == Layout.treeHeader

/-- Sorts lines into metadata and body; `inTree` says whether the lines follow a tree without a break. -/
def sort (inTree : Bool) : List Text → List Text × List Text
  | [] => ([], [])
  | line :: rest =>
    let trimmed := line.trim
    if (inTree && trimmed.startsWith "//") || statesMetadata trimmed then
      let stillInTree := (inTree && trimmed.startsWith "//") || trimmed == Layout.treeHeader
      let (metaLines, body) := sort stillInTree rest
      (trimmed :: metaLines, body)
    else
      let (metaLines, body) := sort false rest
      (metaLines, line :: body)

def ofChunk (c : Chunk) : AnnotatedSection :=
  let (metaLines, body) := sort false (c.lines.dropWhile Layout.isSeparator)
  { path := c.path, metaLines, body }

def allIn (archive : Text) : List AnnotatedSection := (Chunk.cut archive.lines).2.map ofChunk

def flow? (s : AnnotatedSection) : Option Text :=
  (s.metaLines.findSome? (Text.after? · Layout.flowStart)).map Text.trim

/-- The value that a metadata line states for a field. -/
def fieldOn? (name line : Text) : Option Text := do
  let rest ← Text.after? line Layout.metaStart
  let rest ← Text.after? rest.trimStart name
  let value ← Text.after? rest ":"
  some value.trim

def field? (s : AnnotatedSection) (name : Text) : Option Text := s.metaLines.findSome? (fieldOn? name)

/-- Whether a list field is absent or states an empty list. -/
def fieldIsEmpty (s : AnnotatedSection) (name : Text) : Bool :=
  match s.field? name with
  | none => true
  | some value => value == Layout.noneListed || value == ("[]" : Text)

def afterConnector? (line : Text) : Option Text := do
  let rest ← Text.after? line "//"
  let rest := rest.trimStart
  (Text.after? rest "├──").or (Text.after? rest "└──")

def itemsOn (line : Text) : List Text :=
  match (afterConnector? line).bind (Text.cutAt? ':') with
  | none => []
  | some (_, items) => ((Text.splitAt ',' items).map Text.trim).filter (!·.isEmpty)

/-- The items that the dependency tree lists. -/
def treeItems (s : AnnotatedSection) : List Text := s.metaLines.flatMap itemsOn

def code (s : AnnotatedSection) : Text := Text.joinLines s.body

/-- The type hints among lines, each with the trimmed line below it. -/
def hintsAmong : List Text → List (Text × Text)
  | [] => []
  | line :: rest =>
    match Text.after? line.trim Layout.typeStart with
    | none => hintsAmong rest
    | some type => (type.trim, (rest.headD []).trim) :: hintsAmong rest

def typeHints (s : AnnotatedSection) : List (Text × Text) := hintsAmong s.body

end AnnotatedSection

end SourceArchive
