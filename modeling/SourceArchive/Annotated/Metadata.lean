import SourceArchive.Archive.Layout
import SourceArchive.Facts.Endpoint
import SourceArchive.Facts.State
import SourceArchive.Label.Basic

/-!
# Metadata

The labels and facts of a file that its annotation states, and the lines that state them.
-/

namespace SourceArchive

structure Metadata where
  role : Role
  flow : Flow
  framework : Framework
  state : List StateVariable
  props : List Text
  contexts : List Text
  endpoints : List Endpoint
  imports : List Text
deriving Repr, DecidableEq

namespace Metadata

/-- The written value of each field, in the order of the fields. -/
def values (m : Metadata) : List Text := [
  m.role.label, m.flow.label, m.framework.label,
  Layout.list (m.state.map fun v => v.name ++ ":" ++ v.type),
  Layout.list m.props, Layout.list m.contexts, Layout.list (m.endpoints.map (·.label)), Layout.list m.imports]

def lines (m : Metadata) : List Text :=
  (Layout.metaFields.zip m.values).map fun (field, value) =>
    Layout.metaStart ++ " " ++ field ++ ": " ++ value

end Metadata

end SourceArchive
