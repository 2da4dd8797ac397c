import SourceArchive.Archive.Path
import SourceArchive.Pattern.Build
import SourceArchive.Pattern.Search

/-!
# Imports

The modules that code imports, and the names that its import clauses bind.
-/

namespace SourceArchive

/-- A bound name and the module specifier that it comes from. -/
structure ImportBinding where
  name : Text
  source : Text
deriving Repr, DecidableEq

def ImportBinding.isLocal (b : ImportBinding) : Bool := b.source.startsWith "."

namespace Imports

open Pattern

/-- A module specifier in quotation marks, captured under a number. -/
def specifier (number : Nat) : Pattern := sequence [quote, capture number (many1 (noneOf "'\"")), quote]

/-- What an import clause lists: names in brackets, a name, or a namespace. -/
def clauseItem : Pattern := oneOf [
  sequence [lit ['{'], many (noneOf ['}']), lit ['}']],
  word,
  sequence [lit "*", blanks1, lit "as", blanks1, word]]

def staticImport : Pattern := sequence [
  lit "import", blanks1, optional (sequence [lit "type", blanks1]), clauseItem,
  many (sequence [blanks, lit ",", blanks, clauseItem]), blanks1, lit "from", blanks1, specifier 1]

def dynamicImport : Pattern := sequence [lit "import", blanks, lit "(", blanks, specifier 1]

def requireCall : Pattern := sequence [assert .wordEdge, lit "require", blanks, lit "(", blanks, specifier 1]

/-- An import clause that binds names: a default before a comma is captured as 1, names in brackets as 2, a lone
default as 3 and the specifier as 4. -/
def boundImport : Pattern := sequence [
  lit "import", blanks1, optional (sequence [capture 1 word, blanks, lit ",", blanks]),
  oneOf [sequence [lit ['{'], capture 2 (many (noneOf ['}'])), lit ['}']], capture 3 word],
  blanks1, lit "from", blanks1, specifier 4]

/-- The module that a specifier names: the last part of a relative one without its source suffix, the scope and
package of a scoped one, and else the package. -/
def moduleId? (source : Text) : Option Text :=
  let id :=
    if source.startsWith "." then stripSourceSuffix (fileName source)
    else if source.startsWith "@" then Text.join "/" ((Text.splitAt '/' source).take 2)
    else (Text.splitAt '/' source).headD []
  if id.isEmpty ∨ id = "." ∨ id = ".." then none else some id

/-- The imported modules, each once: import clauses, then calls of `import`, then calls of `require`. -/
def modulesIn (code : Text) : List Text :=
  distinct <| [staticImport, dynamicImport, requireCall].flatMap fun p =>
    (p.matchesIn code).filterMap fun m => moduleId? (m.group 1)

/-- Binds a name, which keeps its place if it is bound already.  The empty name is not bound. -/
def bind (bindings : List ImportBinding) (new : ImportBinding) : List ImportBinding :=
  if new.name.isEmpty then bindings
  else if bindings.any (·.name == new.name) then
    bindings.map fun b => if b.name == new.name then new else b
  else bindings ++ [new]

def afterLast? (pattern : Text) : Text → Option Text
  | [] => none
  | c :: r =>
    match afterLast? pattern r with
    | some rest => some rest
    | none => Text.after? (c :: r) pattern

/-- The name that an entry in brackets binds: its alias if it has one; none for a type. -/
def entryName? (entry : Text) : Option Text :=
  let item := entry.trim
  if item.startsWith "type " then none else some ((afterLast? " as " item).getD item).trim

def bindingsOf (ignoredDefaults : List Text) (m : Match) : List ImportBinding :=
  let defaults := [m.group? 1, m.group? 3].filterMap id
  let entries := match m.group? 2 with
    | none => []
    | some braced => (Text.splitAt ',' braced).filterMap entryName?
  (defaults.filter (!ignoredDefaults.contains ·) ++ entries).map (⟨·, m.group 4⟩)

/-- The names that import clauses bind, in order of first occurrence, each with the specifier of its last
clause. -/
def bindingsIn (ignoredDefaults : List Text) (code : Text) : List ImportBinding :=
  ((boundImport.matchesIn code).flatMap (bindingsOf ignoredDefaults)).foldl bind []

end Imports

end SourceArchive
