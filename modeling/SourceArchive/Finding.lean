import SourceArchive.Archive.Path

/-!
# Findings

A finding says where the annotation of an archive and its code disagree.  Findings are kept in the order in which
they were made and can be grouped by what they are about.
-/

namespace SourceArchive

/-- What a finding is about, in alphabetical order of the labels. -/
inductive Category where
  | api
  | context
  | deps
  | duplicate
  | extra
  | flow
  | metadata
  | missing
  | props
  | state
  | type
deriving Repr, DecidableEq

namespace Category

def all : List Category := [api, context, deps, duplicate, extra, flow, metadata, missing, props, state, type]

def rank (c : Category) : Nat := all.idxOf c

def label : Category → Text
  | api => "API"
  | context => "CONTEXT"
  | deps => "DEPS"
  | duplicate => "DUPLICATE"
  | extra => "EXTRA"
  | flow => "FLOW"
  | metadata => "META"
  | missing => "MISSING"
  | props => "PROPS"
  | state => "STATE"
  | type => "TYPE"

end Category

inductive Severity where
  | error
  | warning
deriving Repr, DecidableEq

def Severity.key : Severity → Text
  | error => "error"
  | warning => "warning"

/-- A disagreement between annotation and code. -/
structure Finding where
  category : Category
  severity : Severity
  path : Text
  message : Text
deriving Repr, DecidableEq

namespace Finding

def error (category : Category) (path message : Text) : Finding := ⟨category, .error, path, message⟩

def warning (category : Category) (path message : Text) : Finding := ⟨category, .warning, path, message⟩

def file (f : Finding) : Text := fileName f.path

def isError (f : Finding) : Bool := f.severity = .error

def withSeverity (severity : Severity) (fs : List Finding) : List Finding := fs.filter (·.severity = severity)

def count (severity : Severity) (fs : List Finding) : Nat := (withSeverity severity fs).length

def within (severity : Severity) (category : Category) (fs : List Finding) : List Finding :=
  (withSeverity severity fs).filter (·.category = category)

def countIn (severity : Severity) (category : Category) (fs : List Finding) : Nat :=
  (within severity category fs).length

/-- The findings by category, in the order in which the categories first come up. -/
def groups (fs : List Finding) : List (Category × List Finding) :=
  fs.foldl (fun groups f => enter f.category (fun group => group.getD [] ++ [f]) groups) []

/-- The findings of one severity by category, in alphabetical order. -/
def grouped (severity : Severity) (fs : List Finding) : List (Category × List Finding) :=
  (groups (withSeverity severity fs)).mergeSort fun g h => g.1.rank ≤ h.1.rank

end Finding

end SourceArchive
