import SourceArchive.Label.Basic
import SourceArchive.Label.Evidence
import SourceArchive.Label.Rule
import SourceArchive.Settings.Analysis

/-!
# The role of a file

Directories and names decide first; the code is looked at last.
-/

namespace SourceArchive

namespace RoleRules

open Pattern

def exportedFunction : Pattern := sequence [
  lit "export", blanks1, optional (sequence [lit "default", blanks1]), lit "function", blanks1, word]

def exportedVerbHandler : Pattern := sequence [
  lit "export", blanks1, optional (sequence [lit "async", blanks1]), lit "function", blanks1,
  oneOf [lit "GET", lit "POST", lit "PUT", lit "DELETE", lit "PATCH"], blanks, lit "("]

def isMiddleware (e : Evidence) : Bool := e.name.endsWith "middleware.ts" || e.name.endsWith "middleware.tsx"

/-- Whether a name starts like that of a hook: `use` and a capital or a hyphen. -/
def namesHook (file : Text) : Bool :=
  match Text.after? file "use" with
  | some (c :: _) => c.isUpper || c == '-'
  | _ => false

def isHook (e : Evidence) : Bool := e.pathHas "/hooks/" || namesHook e.file

/-- Whether the file lies in a directory of services or libraries. -/
def inServiceDirectory (e : Evidence) : Bool := e.pathHasAny ["/services/", "/lib/"]

def isConfig (e : Evidence) : Bool :=
  e.pathHas "/config/" ||
    ["config.ts", "config.tsx", "config.js", "config.mjs"].any fun tail => e.name.endsWith tail

def looksLikeComponent (e : Evidence) : Bool := exportedFunction.occursIn e.code && e.codeHas "<"

/-- The roles, in order of precedence. -/
def table (s : AnalysisSettings) : RuleTable Evidence Role where
  rules := [
    ⟨"api-directory", (·.inApiDirectory), .apiRoute⟩,
    ⟨"middleware-file", isMiddleware, .middleware⟩,
    ⟨"hook", isHook, .hook⟩,
    ⟨"service-keyword", fun e => inServiceDirectory e && e.pathHasAny s.serviceKeywords, .service⟩,
    ⟨"service-directory", inServiceDirectory, .utility⟩,
    ⟨"utility-directory", (·.pathHasAny ["/utils/", "/helpers/"]), .utility⟩,
    ⟨"config", isConfig, .config⟩,
    ⟨"page", fun e => e.stem == ("page" : Text), .pageComponent⟩,
    ⟨"components-directory", (·.pathHas "/components/"), .uiComponent⟩,
    ⟨"layout", fun e => e.stem == ("layout" : Text), .layoutComponent⟩,
    ⟨"context-directory", (·.pathHasAny ["/context/", "/providers/"]), .contextProvider⟩,
    ⟨"type-module", fun e => e.pathHas "/types/" || e.name.endsWith ".d.ts", .typeDefinition⟩,
    ⟨"component-content", looksLikeComponent, .uiComponent⟩,
    ⟨"handler-content", fun e => exportedVerbHandler.occursIn e.code, .apiRoute⟩]
  default := .module

end RoleRules

end SourceArchive
