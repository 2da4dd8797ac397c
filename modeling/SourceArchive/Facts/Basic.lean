import SourceArchive.Facts.Context
import SourceArchive.Facts.Endpoint
import SourceArchive.Facts.Import
import SourceArchive.Facts.Props
import SourceArchive.Facts.State
import SourceArchive.Settings.Analysis

/-!
# Facts

All that is read from the code of a file.  No code is refused: what is not found is an empty list.
-/

namespace SourceArchive

/-- What was found in the code of a file. -/
structure Facts where
  state : List StateVariable
  props : List Text
  contexts : List Text
  endpoints : List Endpoint
  imports : List Text
  bindings : List ImportBinding
deriving Repr, DecidableEq

def Facts.of (s : AnalysisSettings) (code : Text) : Facts where
  state := StateVariable.allIn code
  props := Props.allIn code
  contexts := Contexts.allIn code
  endpoints := Endpoint.allIn s.knownApiHost s.placeholder code
  imports := Imports.modulesIn code
  bindings := Imports.bindingsIn s.ignoredDefaultImports code

end SourceArchive
