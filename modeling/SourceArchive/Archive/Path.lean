import SourceArchive.Text.Lowercase

/-!
# Paths and kinds of source files

Paths are written with slashes.  The kind of a source file goes by the extension of its name.
-/

namespace SourceArchive

def fileName (path : Text) : Text := Text.lastPiece '/' path

/-- A name without its last extension; a dot in first place begins no extension. -/
def stem (name : Text) : Text :=
  let kept := ((name.reverse.dropWhile (· != '.')).drop 1).reverse
  if kept.isEmpty then name else kept

def joinPath (directory name : Text) : Text :=
  if directory.getLast? = some '/' then directory ++ name else directory ++ ['/'] ++ name

/-- The part behind the last dot, if there is a dot. -/
def extension? (name : Text) : Option Text :=
  let pieces := Text.splitAt '.' name
  if pieces.length < 2 then none else pieces.getLast?

inductive SourceKind where
  | typeScript
  | tsx
  | javaScript
  | jsx
  | unknown
deriving Repr, DecidableEq

namespace SourceKind

def extensions : List (Text × SourceKind) := [
  ("ts", typeScript), ("mts", typeScript), ("cts", typeScript), ("tsx", tsx),
  ("js", javaScript), ("mjs", javaScript), ("cjs", javaScript), ("jsx", jsx)]

/-- The kind that an extension stands for, in any case. -/
def ofExtension (ext : Text) : SourceKind := (extensions.lookup ext.lowercase).getD unknown

def ofPath (path : Text) : SourceKind :=
  match extension? (fileName path) with
  | none => unknown
  | some ext => ofExtension ext

def label : SourceKind → Text
  | typeScript => "TypeScript"
  | tsx => "Tsx"
  | javaScript => "JavaScript"
  | jsx => "Jsx"
  | unknown => "Unknown"

def allowsMarkup (k : SourceKind) : Bool := k = tsx || k = jsx

def isPlainTypeScript (k : SourceKind) : Bool := k = typeScript

def isSource (k : SourceKind) : Bool := k != unknown

end SourceKind

/-- The suffixes taken off the names of local modules, in order of preference. -/
def sourceSuffixes : List Text := [".tsx", ".jsx", ".ts", ".js"]

/-- A name without the first of the source suffixes that it ends with. -/
def stripSourceSuffix (name : Text) : Text := (sourceSuffixes.findSome? (Text.before? name ·)).getD name

end SourceArchive
