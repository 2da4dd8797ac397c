import SourceArchive.Annotated.Reader
import SourceArchive.Check.Evidence
import SourceArchive.Finding
import SourceArchive.Label.Basic
import SourceArchive.Text.Lowercase

/-!
# The checks of a section

Eight checks compare what the annotation of a section states with what its code shows.  Each answers with its
findings; `all` is their sequence.
-/

namespace SourceArchive

namespace AnnotatedSection

/-- A label of one business flow needs its keywords, if the other flow has more of them than tolerated. -/
def keywordFindings (s : AnnotatedSection) (label own other : Text) (ownHits otherHits threshold : Nat) :
    List Finding :=
  if threshold < otherHits ∧ ownHits = 0 then
    [.warning .flow s.path
      ("Marked " ++ label ++ " but has " ++ decimal otherHits ++ " " ++ other ++ " keywords, 0 " ++ own
        ++ " keywords")]
  else []

/-- The stated flow against the keywords of the code and the routes in the path. -/
def checkFlow (s : AnnotatedSection) (settings : CheckSettings) : List Finding :=
  match s.flow? with
  | none => [.error .flow s.path "Missing FLOW label"]
  | some label =>
    let lower := s.code.lowercase
    let affiliate := Evidenced.keywordHits lower settings.affiliateKeywords
    let vendor := Evidenced.keywordHits lower settings.vendorKeywords
    let threshold := settings.flowKeywordThreshold
    match Flow.ofLabel? label with
    | some .affiliateOnly => s.keywordFindings label "affiliate" "vendor" affiliate vendor threshold
    | some .vendorOnly => s.keywordFindings label "vendor" "affiliate" vendor affiliate threshold
    | some .shared =>
      let path := s.path.lowercase
      if settings.affiliateRoutes.any path.contains && !path.contains settings.vendorRoute then
        [.warning .flow s.path "Path contains affiliate-specific route but marked SHARED"]
      else []
    | _ => []

def checkMetadata (s : AnnotatedSection) : List Finding :=
  (Layout.metaFields.filter fun name => (s.field? name).isNone).map fun name =>
    .error .metadata s.path ("Missing META field: " ++ name)

def distance (a b : Nat) : Nat := (a - b) + (b - a)

def checkState (s : AnnotatedSection) (settings : CheckSettings) : List Finding :=
  let actual := Evidenced.stateDeclarations s.code
  let listed := ((s.field? "State").map Evidenced.listedEntries).getD 0
  if 0 < actual ∧ listed = 0 then
    [.error .state s.path
      ("META: State says [none] but code has " ++ decimal actual ++ " state variables")]
  else if 0 < listed ∧ actual = 0 then
    [.error .state s.path
      ("META: State lists " ++ decimal listed ++ " vars but code has no useState/useReducer")]
  else if settings.stateTolerance < distance actual listed then
    [.warning .state s.path
      ("State count mismatch: META=" ++ decimal listed ++ ", code=" ++ decimal actual ++ " (diff="
        ++ decimal (distance actual listed) ++ ")")]
  else []

/-- Calls with an address need listed endpoints. -/
def checkApis (s : AnnotatedSection) : List Finding :=
  let fetches := Evidenced.stringFetches s.code
  if 0 < fetches ∧ s.fieldIsEmpty "APIs" then
    [.error .api s.path
      ("META: APIs says [none] but code has " ++ decimal fetches ++ " fetch calls with URLs")]
  else []

def checkContexts (s : AnnotatedSection) (settings : CheckSettings) : List Finding :=
  let used := Evidenced.contexts settings.contextAccessors s.code
  if !used.isEmpty ∧ s.fieldIsEmpty "Context" then
    [.error .context s.path ("META: Context says [none] but code uses: " ++ Text.join ", " used)]
  else []

def checkProps (s : AnnotatedSection) : List Finding :=
  if Evidenced.hasProps s.code ∧ s.fieldIsEmpty "Props" then
    [.warning .props s.path "Code has props but META: Props says [none]"]
  else []

def vagueMessage (type declaration : Text) : Text :=
  if type = "Array" then "Generic \"Array\" (no element type): " ++ declaration
  else if type = "Object" then "Generic \"Object\" (no structure): " ++ declaration
  else "Vague type \"" ++ type ++ "\": " ++ declaration

def checkTypes (s : AnnotatedSection) (settings : CheckSettings) : List Finding :=
  (s.typeHints.filter fun (type, _) => settings.vagueTypes.contains type).map fun (type, next) =>
    .warning .type s.path (vagueMessage type (next.take settings.typeContextWidth))

/-- The items of the tree that do not occur in the code. -/
def phantoms (s : AnnotatedSection) : List Text :=
  let code := s.code
  s.treeItems.filter fun item => !Evidenced.hasWord code item

/-- Not too many items of the tree may be missing from the code. -/
def checkTree (s : AnnotatedSection) (settings : CheckSettings) : List Finding :=
  let items := s.treeItems
  let phantoms := s.phantoms
  let tolerated := Binary64.round (items.length * settings.phantomRatio.toRat)
  if !phantoms.isEmpty ∧ tolerated < phantoms.length then
    [.warning .deps s.path
      (decimal phantoms.length ++ "/" ++ decimal items.length ++ " tree items not found in code: "
        ++ Text.join ", " (phantoms.take 5))]
  else []

def findings (s : AnnotatedSection) (settings : CheckSettings) : List Finding :=
  s.checkFlow settings ++ s.checkMetadata ++ s.checkState settings ++ s.checkApis ++ s.checkContexts settings
    ++ s.checkProps ++ s.checkTypes settings ++ s.checkTree settings

end AnnotatedSection

end SourceArchive
