import SourceArchive.Archive.Layout
import SourceArchive.Facts.Import
import SourceArchive.Settings.Analysis
import SourceArchive.Text.Uppercase

/-!
# Dependency trees

A summary of what a file depends on, in four buckets: hooks, the components that it uses, services and libraries.
Each bucket is in ascending order without repetitions.
-/

namespace SourceArchive

structure DependencyTree where
  /-- The name of what the file defines first. -/
  name : Text
  hooks : List Text
  uses : List Text
  services : List Text
  libs : List Text
deriving Repr, DecidableEq

namespace DependencyTree

open Pattern

/-- The definition of a function or constant with a capital, whose name is captured as 1. -/
def primaryDefinition : Pattern := sequence [
  optional (sequence [lit "export", blanks1, optional (sequence [lit "default", blanks1])]),
  oneOf [lit "function", lit "const"], blanks1, capture 1 (sequence [capital, many wordChar])]

/-- A call of a hook, whose name is captured as 1. -/
def hookCall : Pattern := sequence [
  assert .wordEdge, capture 1 (sequence [lit "use", capital, many wordChar]), blanks, lit "("]

/-- The texts in ascending order, each once. -/
def sortedSet (ts : List Text) : List Text := distinct (ts.mergeSort Text.le)

def startsUppercase (t : Text) : Bool := t.head?.any isUppercase

/-- Whether a name is that of a hook: `use` and an uppercase character. -/
def isHookName (name : Text) : Bool := (Text.after? name "use").any startsUppercase

/-- The name of what the code defines first; the name of the file if that is nothing with a capital. -/
def displayName (path code : Text) : Text :=
  match primaryDefinition.firstIn code with
  | some m => m.group 1
  | none => stripSourceSuffix (fileName path)

/-- The hooks that code calls, built-in ones aside. -/
def calledHooks (builtin : List Text) (code : Text) : List Text :=
  ((hookCall.matchesIn code).map (·.group 1)).filter (!builtin.contains ·)

def of (s : AnalysisSettings) (path code : Text) (bindings : List ImportBinding) : DependencyTree :=
  let names (p : ImportBinding → Bool) := (bindings.filter p).map (·.name)
  let isHook (b : ImportBinding) := isHookName b.name
  let isComponent (b : ImportBinding) := startsUppercase b.name
  { name := displayName path code
    hooks := sortedSet (names (fun b => b.isLocal && isHook b) ++ calledHooks s.builtinHooks code)
    uses := sortedSet (names fun b => b.isLocal && !isHook b && isComponent b)
    services := sortedSet (names fun b => b.isLocal && !isHook b && !isComponent b)
    libs := sortedSet ((names fun b => !b.isLocal).take s.maxTreeLibs) }

/-- The buckets that are not empty, with their labels. -/
def buckets (t : DependencyTree) : List (Text × List Text) :=
  let all : List (Text × List Text) :=
    [("hooks", t.hooks), ("uses", t.uses), ("services", t.services), ("libs", t.libs)]
  all.filter (!·.2.isEmpty)

def items (t : DependencyTree) : List Text := t.buckets.flatMap (·.2)

/-- The lines of buckets; the last has a connector of its own. -/
def bucketLines : List (Text × List Text) → List Text
  | [] => []
  | [(label, items)] => ["// " ++ Layout.treeLast ++ label ++ ": " ++ Text.join ", " items]
  | (label, items) :: rest =>
    ("// " ++ Layout.treeBranch ++ label ++ ": " ++ Text.join ", " items) :: bucketLines rest

def lines (t : DependencyTree) : List Text := ("// " ++ t.name) :: bucketLines t.buckets

end DependencyTree

end SourceArchive
