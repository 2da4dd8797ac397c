import SourceArchive.Label.Basic
import SourceArchive.Label.Evidence
import SourceArchive.Label.Rule

/-!
# The framework of a file

Interface directories decide first, then directives, server functions, markup and the kind of the file.
-/

namespace SourceArchive

namespace FrameworkRules

def serverDataFunctions : List Text := ["getServerSideProps", "getStaticProps", "generateMetadata",
  "generateStaticParams"]

def usesRouteTypes (e : Evidence) : Bool := e.codeHas "NextRequest" || e.codeHas "NextResponse"

def asksForClient (e : Evidence) : Bool := e.codeHas "'use client'" || e.codeHas "\"use client\""

def rendersMarkup (e : Evidence) : Bool :=
  e.kind.allowsMarkup && e.codeHas "<" && (e.codeHas "return" || e.codeHas "render")

/-- The frameworks, in order of precedence. -/
def table : RuleTable Evidence Framework where
  rules := [
    ⟨"next-api-route", fun e => e.inApiDirectory && usesRouteTypes e, .nextApiRoute⟩,
    ⟨"api-directory", (·.inApiDirectory), .node⟩,
    ⟨"client-directive", asksForClient, .clientComponent⟩,
    ⟨"server-directive", (·.codeHas "use server"), .serverAction⟩,
    ⟨"server-data", fun e => serverDataFunctions.any e.codeHas, .serverComponent⟩,
    ⟨"markup", rendersMarkup, .serverComponent⟩,
    ⟨"plain-typescript", (·.kind.isPlainTypeScript), .typeScript⟩]
  default := .nextJs

end FrameworkRules

end SourceArchive
