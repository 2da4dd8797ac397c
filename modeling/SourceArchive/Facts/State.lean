import SourceArchive.Facts.Delimiter
import SourceArchive.Pattern.Build
import SourceArchive.Pattern.Search

/-!
# State variables

A state variable is declared by binding a value and its setter to a call of `useState` or `useReducer`.  Its type
is the type argument of the call, or is inferred from the shape of the initial value.
-/

namespace SourceArchive

inductive StateKind where
  | useState
  | useReducer
deriving Repr, DecidableEq

namespace StateKind

def all : List StateKind := [useState, useReducer]

def callName : StateKind → Text
  | useState => "useState"
  | useReducer => "useReducer"

def key : StateKind → Text
  | useState => "UseState"
  | useReducer => "UseReducer"

end StateKind

structure StateVariable where
  name : Text
  /-- The function bound beside the value. -/
  setter : Text
  /-- The declared or inferred type. -/
  type : Text
  initial : Text
  kind : StateKind
deriving Repr, DecidableEq

namespace StateVariable

open Pattern

/-- A declaration up to the name of the called function: the value is captured as 1, the setter as 2 and the
called function as 3. -/
def declaration : Pattern := sequence [
  lit "const", blanks1, lit "[", blanks, capture 1 word, blanks, lit ",", blanks, capture 2 word, blanks,
  lit "]", blanks, lit "=", blanks, optional (lit "React."),
  capture 3 (oneOf [lit "useState", lit "useReducer"]), assert .wordEdge]

/-- The type argument and the arguments of a call, read behind the name of the called function. -/
def callParts (behind : Text) : Option Text × Text :=
  let t := behind.trimStart
  let (explicit, t) : Option Text × Text :=
    match if t.startsWith "<" then Delimiter.genericLength? t else none with
    | none => (none, t)
    | some n =>
      let argument := (Delimiter.inner t n).trim
      (if argument.isEmpty then none else some argument, Text.trimStart (t.drop n))
  if t.startsWith "(" then
    match Delimiter.balancedLength? t with
    | none => (explicit, [])
    | some n => (explicit, Delimiter.inner t n)
  else (explicit, [])

/-- The text up to the first comma outside brackets, of which `depth` are open.  The depth may fall below zero; it is
unbounded where a counter of 32 bits is meant, which a text would have to hold 2^31 brackets to leave. -/
def upToComma (depth : Int) : Text → Text
  | [] => []
  | c :: r =>
    if c = ',' ∧ depth = 0 then []
    else
      let depth := if Delimiter.opens c then depth + 1 else if Delimiter.closes c then depth - 1 else depth
      c :: upToComma depth r

def firstArgument (arguments : Text) : Text := Text.trim (upToComma 0 arguments)

/-- A number: digits, possibly with a sign in front and a fraction behind. -/
def numericLiteral : Pattern := sequence [
  assert .textStart, optional (lit "-"), many1 (one .digit),
  optional (sequence [lit ".", many1 (one .digit)]), assert .textEnd]

/-- The type that the shape of an initial value suggests; the value itself if its shape says nothing. -/
def inferType (initial : Text) : Text :=
  let t := initial.trim
  if t.isEmpty then "unknown"
  else if t = "true" ∨ t = "false" then "boolean"
  else if t = "null" ∨ t = "undefined" then "nullable"
  else if t = "[]" then "Array"
  else if t = ['{', '}'] then "Object"
  else if t.startsWith "'" || t.startsWith "\"" || t.startsWith "\x60" then "string"
  else if numericLiteral.occursIn t then "number"
  else if t.startsWith ['{'] then "Object"
  else if t.startsWith "[" then "Array"
  else if t.startsWith "new Date" then "Date"
  else t

def ofDeclaration (m : Match) : StateVariable :=
  let (explicit, arguments) := callParts m.behind
  if m.group 3 = StateKind.callName .useReducer then
    { name := m.group 1, setter := m.group 2, type := "Reducer",
      initial := (firstArgument arguments).singleLine, kind := .useReducer }
  else
    let initial := arguments.singleLine
    { name := m.group 1, setter := m.group 2, initial, kind := .useState,
      type := match explicit with
        | some t => t.singleLine
        | none => inferType initial }

@[simp] theorem ofDeclaration_name (m : Match) : (ofDeclaration m).name = m.group 1 := by
  rw [ofDeclaration]
  split
  · split <;> rfl

@[simp] theorem ofDeclaration_setter (m : Match) : (ofDeclaration m).setter = m.group 2 := by
  rw [ofDeclaration]
  split
  · split <;> rfl

def allIn (code : Text) : List StateVariable := (declaration.matchesIn code).map ofDeclaration

end StateVariable

end SourceArchive
