import SourceArchive.Text.Blank

/-!
# Labels of a file

Every section gets three labels: the role of its file, the flow that owns it and the framework that it belongs
to.  Each label has a written form, used in the archive, and a key, used in data.
-/

namespace SourceArchive

inductive Role where
  | apiRoute
  | middleware
  | hook
  | service
  | utility
  | config
  | pageComponent
  | uiComponent
  | layoutComponent
  | contextProvider
  | typeDefinition
  | module
deriving Repr, DecidableEq

namespace Role

def all : List Role := [apiRoute, middleware, hook, service, utility, config, pageComponent, uiComponent,
  layoutComponent, contextProvider, typeDefinition, module]

def label : Role → Text
  | apiRoute => "API Route"
  | middleware => "Middleware"
  | hook => "Hook"
  | service => "Service"
  | utility => "Utility"
  | config => "Config"
  | pageComponent => "Page Component"
  | uiComponent => "UI Component"
  | layoutComponent => "Layout Component"
  | contextProvider => "Context Provider"
  | typeDefinition => "Type Definition"
  | module => "Module"

def key : Role → Text
  | apiRoute => "ApiRoute"
  | middleware => "Middleware"
  | hook => "Hook"
  | service => "Service"
  | utility => "Utility"
  | config => "Config"
  | pageComponent => "PageComponent"
  | uiComponent => "UiComponent"
  | layoutComponent => "LayoutComponent"
  | contextProvider => "ContextProvider"
  | typeDefinition => "TypeDefinition"
  | module => "Module"

end Role

/-- The business flow that owns a file. -/
inductive Flow where
  | affiliateOnly
  | vendorOnly
  | memberOnly
  | shared
deriving Repr, DecidableEq

namespace Flow

def all : List Flow := [affiliateOnly, vendorOnly, memberOnly, shared]

def label : Flow → Text
  | affiliateOnly => "AFFILIATE ONLY"
  | vendorOnly => "VENDOR ONLY"
  | memberOnly => "MEMBER ONLY"
  | shared => "SHARED"

def key : Flow → Text
  | affiliateOnly => "AffiliateOnly"
  | vendorOnly => "VendorOnly"
  | memberOnly => "MemberOnly"
  | shared => "Shared"

/-- The flow with a written form, blanks around it aside. -/
def ofLabel? (label : Text) : Option Flow := all.find? (·.label == label.trim)

end Flow

/-- The execution environment of a file. -/
inductive Framework where
  | nextApiRoute
  | node
  | clientComponent
  | serverAction
  | serverComponent
  | typeScript
  | nextJs
deriving Repr, DecidableEq

namespace Framework

def all : List Framework := [nextApiRoute, node, clientComponent, serverAction, serverComponent, typeScript, nextJs]

def label : Framework → Text
  | nextApiRoute => "Next.js API Route"
  | node => "Node.js"
  | clientComponent => "React (Client Component)"
  | serverAction => "Next.js (Server Action)"
  | serverComponent => "Next.js (Server Component)"
  | typeScript => "TypeScript"
  | nextJs => "Next.js"

def key : Framework → Text
  | nextApiRoute => "NextApiRoute"
  | node => "Node"
  | clientComponent => "ClientComponent"
  | serverAction => "ServerAction"
  | serverComponent => "ServerComponent"
  | typeScript => "TypeScript"
  | nextJs => "NextJs"

end Framework

end SourceArchive
