import SourceArchive.Annotated.Hint
import SourceArchive.Annotated.Metadata
import SourceArchive.DependencyTree

/-!
# Writing an annotated section

An annotated section begins with a blank line and the marker between separators.  The flow, the metadata and the
dependency tree follow, each with a blank line behind it, and then the body with type hints.
-/

namespace SourceArchive

namespace Annotated

def header (path : Text) (m : Metadata) (tree : DependencyTree) : List Text :=
  [[], Layout.separatorLine, Layout.fileMarker ++ " " ++ path, Layout.separatorLine,
    Layout.flowStart ++ " " ++ m.flow.label, []]
  ++ m.lines ++ [[], Layout.treeHeader] ++ tree.lines ++ [[]]

def lines (path : Text) (m : Metadata) (tree : DependencyTree) (body : List Text) : List Text :=
  header path m tree ++ Hint.insert m.state body

end Annotated

end SourceArchive
