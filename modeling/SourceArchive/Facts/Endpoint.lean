import SourceArchive.Pattern.Build
import SourceArchive.Pattern.Search

/-!
# Endpoints

The targets of outbound calls and the exported handlers of a route.  Interpolations in a path are replaced by a
placeholder.
-/

namespace SourceArchive

inductive Verb where
  | get
  | post
  | put
  | delete
  | patch
deriving Repr, DecidableEq

namespace Verb

def all : List Verb := [get, post, put, delete, patch]

def label : Verb → Text
  | get => "GET"
  | post => "POST"
  | put => "PUT"
  | delete => "DELETE"
  | patch => "PATCH"

def key : Verb → Text
  | get => "Get"
  | post => "Post"
  | put => "Put"
  | delete => "Delete"
  | patch => "Patch"

def ofLabel? (t : Text) : Option Verb := all.find? (·.label == t)

end Verb

/-- The target of an outbound call, or a route handler. -/
inductive Endpoint where
  /-- A path of the application without interpolations. -/
  | literal (path : Text)
  /-- A path of the application whose interpolations are replaced. -/
  | parameterized (path : Text)
  | external (host path : Text)
  | handler (verb : Verb)
deriving Repr, DecidableEq

namespace Endpoint

def label : Endpoint → Text
  | literal path => path
  | parameterized path => path
  | external host path => "EXTERNAL:" ++ host ++ path
  | handler verb => "HANDLER:" ++ verb.label

open Pattern

/-- An interpolation that is not empty. -/
def interpolation : Pattern := sequence [lit ['$', '{'], many1 (noneOf ['}']), lit ['}']]

def callOpening : Pattern := sequence [blanks, lit "(", blanks]

/-- A base address: an interpolation at the start of a template, and the path behind it, captured as 1. -/
def baseTemplate : Pattern := sequence [
  lit "\x60", interpolation, capture 1 (sequence [lit "/", many1 (noneOf "\x60")]), lit "\x60"]

def fetchAppPath : Pattern := sequence [
  lit "fetch", callOpening, anyQuote, capture 1 (sequence [lit "/api/", many1 (noneOf "'\"\x60")]), anyQuote]

def fetchBaseAddress : Pattern := sequence [lit "fetch", callOpening, baseTemplate]

/-- A call of `fetch` with a host, captured as 1, and a path, captured as 2. -/
def fetchAbsolute : Pattern := sequence [
  lit "fetch", callOpening, anyQuote, lit "http", optional (lit "s"), lit "://",
  capture 1 (many1 (noneOf "/'\"\x60")), capture 2 (sequence [lit "/", many1 (noneOf "'\"\x60")]), anyQuote]

def axiosPath : Pattern := sequence [
  lit "axios.", word, callOpening, anyQuote, capture 1 (sequence [lit "/", many1 (noneOf "'\"\x60")]), anyQuote]

def axiosBaseAddress : Pattern := sequence [lit "axios.", word, callOpening, baseTemplate]

/-- An exported function named for a verb, captured as 1. -/
def verbHandler : Pattern := sequence [
  lit "export", blanks1, optional (sequence [lit "async", blanks1]), lit "function", blanks1,
  capture 1 (oneOf (Verb.all.map fun v => lit v.label)), blanks, lit "("]

/-- A path with the placeholder for each interpolation. -/
def normalize (placeholder path : Text) : Text := interpolation.replaceIn placeholder path

def ofPath (placeholder path : Text) : Endpoint :=
  let normalized := normalize placeholder path
  if normalized = path then literal path else parameterized normalized

/-- The texts captured as 1 by the matches of a pattern. -/
def groupsIn (p : Pattern) (code : Text) : List Text := (p.matchesIn code).map (·.group 1)

def absoluteIn (code : Text) : List (Text × Text) :=
  (fetchAbsolute.matchesIn code).map fun m => (m.group 1, m.group 2)

/-- The endpoints in code, each once: paths of the application, calls of its own host, calls of other hosts,
`axios` calls, and handlers. -/
def allIn (ownHost placeholder code : Text) : List Endpoint :=
  let paths (p : Pattern) := (groupsIn p code).map (ofPath placeholder)
  let (own, other) := (absoluteIn code).partition fun (host, _) => host.sameIgnoringAsciiCase ownHost
  distinct <|
    paths fetchAppPath ++ paths fetchBaseAddress
    ++ own.map (fun (_, path) => ofPath placeholder path)
    ++ other.map (fun (host, path) => external host (normalize placeholder path))
    ++ paths axiosPath ++ paths axiosBaseAddress
    ++ ((groupsIn verbHandler code).filterMap Verb.ofLabel?).map handler

end Endpoint

end SourceArchive
