import SourceArchive.Annotated.Writer
import SourceArchive.Archive.Section
import SourceArchive.Distribution
import SourceArchive.Facts.Basic
import SourceArchive.Label.Classifier

/-!
# Enhancing an archive

Every section is classified, its facts are read and the whole is written with annotations; the totals over all
sections are kept beside it.
-/

namespace SourceArchive

structure AnalyzedSection where
  source : Section
  metadata : Metadata
  tree : DependencyTree
deriving Repr, DecidableEq

namespace AnalyzedSection

def lines (s : AnalyzedSection) : List Text := Annotated.lines s.source.path s.metadata s.tree s.source.body

end AnalyzedSection

/-- Classifies a section and reads its facts. -/
def Classifier.analyze (c : Classifier) (s : Section) : AnalyzedSection :=
  let code := s.code
  let facts := Facts.of c.settings code
  { source := s
    metadata :=
      { role := c.role s.path code
        flow := c.flow s.path code
        framework := c.framework s.path code
        state := facts.state
        props := facts.props
        contexts := facts.contexts
        endpoints := facts.endpoints
        imports := facts.imports }
    tree := .of c.settings s.path code facts.bindings }

structure Statistics where
  sections : Nat := 0
  roles : Distribution := {}
  flows : Distribution := {}
  frameworks : Distribution := {}
  stateVariables : Nat := 0
  props : Nat := 0
  endpoints : Nat := 0
  contexts : Nat := 0
deriving Repr, DecidableEq

namespace Statistics

/-- The totals with one more section. -/
def add (s : Statistics) (m : Metadata) : Statistics where
  sections := s.sections + 1
  roles := s.roles.add m.role.label
  flows := s.flows.add m.flow.label
  frameworks := s.frameworks.add m.framework.label
  stateVariables := s.stateVariables + m.state.length
  props := s.props + m.props.length
  endpoints := s.endpoints + m.endpoints.length
  contexts := s.contexts + m.contexts.length

def of (ms : List Metadata) : Statistics := ms.foldl add {}

def lines (s : Statistics) : List Text :=
  let counted (what : Text) (n : Nat) : Text := what ++ ": " ++ decimal n
  let listing (title : Text) (d : Distribution) : List Text := [] :: (title ++ ":") :: d.lines
  [counted "Sections processed" s.sections]
  ++ listing "File Types" s.roles ++ listing "Flow Distribution" s.flows ++ listing "Frameworks" s.frameworks
  ++ [[],
    counted "Total state variables found" s.stateVariables,
    counted "Total props extracted" s.props,
    counted "Total API endpoints found" s.endpoints,
    counted "Total context providers found" s.contexts]

def text (s : Statistics) : Text := Text.endLines s.lines

end Statistics

structure Enhanced where
  sections : List AnalyzedSection
deriving Repr, DecidableEq

namespace Enhanced

def statistics (e : Enhanced) : Statistics := .of (e.sections.map (·.metadata))

def paths (e : Enhanced) : List Text := e.sections.map (·.source.path)

def text (e : Enhanced) : Text := e.sections.flatMap fun s => Text.endLines s.lines

end Enhanced

def Classifier.enhance (c : Classifier) (archive : Text) : Enhanced := ⟨(split archive).map c.analyze⟩

end SourceArchive
