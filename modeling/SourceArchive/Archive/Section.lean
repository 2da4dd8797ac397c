import SourceArchive.Archive.Layout
import SourceArchive.Archive.Path

/-!
# Sections of an archive

An archive is a preamble followed by chunks, each a marker line and the lines up to the next marker.  Sections
are read off the chunks: separators next to a marker belong to the header of the marker's section, whether they
stand above or below it, and all other lines belong to a body.
-/

namespace SourceArchive

structure Section where
  path : Text
  /-- The marker line and the separators next to it. -/
  header : List Text
  /-- The remaining lines. -/
  body : List Text
deriving Repr, DecidableEq

namespace Section

def code (s : Section) : Text := Text.joinLines s.body

def fileName (s : Section) : Text := SourceArchive.fileName s.path

end Section

/-- A marker line and the lines up to the next marker. -/
structure Chunk where
  marker : Text
  lines : List Text
deriving Repr, DecidableEq

namespace Chunk

def path (c : Chunk) : Text := (Layout.markerPath? c.marker).getD []

/-- The preamble and the chunks of a list of lines. -/
def cut : List Text → List Text × List Chunk
  | [] => ([], [])
  | line :: rest =>
    let (before, chunks) := cut rest
    if Layout.isMarker line then ([], ⟨line, before⟩ :: chunks) else (line :: before, chunks)

def uncut (preamble : List Text) (chunks : List Chunk) : List Text :=
  preamble ++ chunks.flatMap fun c => c.marker :: c.lines

theorem uncut_cut (ls : List Text) : uncut (cut ls).1 (cut ls).2 = ls := by
  induction ls with
  | nil => rfl
  | cons line rest ih =>
    simp only [uncut] at ih
    by_cases h : Layout.isMarker line <;> simp [cut, uncut, h, ih]

end Chunk

/-- A list without the members at its end that satisfy `p`. -/
def dropTrailing {α : Type} (p : α → Bool) (l : List α) : List α := (l.reverse.dropWhile p).reverse

/-- The members at the end of a list that satisfy `p`. -/
def takeTrailing {α : Type} (p : α → Bool) (l : List α) : List α := (l.reverse.takeWhile p).reverse

theorem dropTrailing_append_takeTrailing {α : Type} (p : α → Bool) (l : List α) :
    dropTrailing p l ++ takeTrailing p l = l := by
  rw [dropTrailing, takeTrailing, ← List.reverse_append, List.takeWhile_append_dropWhile, List.reverse_reverse]

/-- The sections of chunks; `lead` are the separators above the first marker. -/
def sectionsOf (lead : List Text) : List Chunk → List Section
  | [] => []
  | c :: rest =>
    let header := lead ++ c.marker :: c.lines.takeWhile Layout.isSeparator
    let body := c.lines.dropWhile Layout.isSeparator
    if rest.isEmpty then [⟨c.path, header, body⟩]
    else
      ⟨c.path, header, dropTrailing Layout.isSeparator body⟩ ::
        sectionsOf (takeTrailing Layout.isSeparator body) rest

/-- The sections of an archive.  The preamble is left out but for separators above the first marker, and files
that occur twice have two sections. -/
def split (archive : Text) : List Section :=
  let (preamble, chunks) := Chunk.cut archive.lines
  sectionsOf (takeTrailing Layout.isSeparator preamble) chunks

def markerPaths (archive : Text) : List Text := archive.lines.filterMap Layout.markerPath?

end SourceArchive
