import SourceArchive.Pattern.Escape

/-!
# Bracketed classes of written patterns

A class in brackets lists characters, ranges, escapes and further classes; a circumflex in front negates it, and
`&&`, `--` and `~~` combine what stands on either side.  A class that ignores case is closed under case before it
is negated or combined.
-/

namespace SourceArchive

namespace Bracket

inductive Combination where
  | intersection
  | difference
  | symmetricDifference
deriving Repr, DecidableEq

def Combination.apply : Combination → CharClass → CharClass → CharClass
  | intersection, a, b => .inter a b
  | difference, a, b => .inter a (.compl b)
  | symmetricDifference, a, b => .union (.inter a (.compl b)) (.inter b (.compl a))

/-- An open bracket: whether it is negated, a combination that waits for its right side, and the items so far. -/
structure Level where
  negated : Bool
  waiting : Option (Combination × CharClass) := none
  items : CharClass := .none

/-- A class closed under case if case is ignored. -/
def foldIf (ignoreCase : Bool) (c : CharClass) : CharClass := if ignoreCase then .folded c else c

namespace Level

def add (l : Level) (c : CharClass) : Level :=
  { l with items := if l.items = .none then c else .union l.items c }

/-- The class of what stands in the bracket so far. -/
def combined (l : Level) (ignoreCase : Bool) : CharClass :=
  match l.waiting with
  | none => l.items
  | some (op, left) => op.apply (foldIf ignoreCase left) (foldIf ignoreCase l.items)

def close (l : Level) (ignoreCase : Bool) : CharClass :=
  let c := foldIf ignoreCase (l.combined ignoreCase)
  if l.negated then .compl c else c

/-- Takes what stands in the bracket so far as the left side of a combination. -/
def combine (l : Level) (ignoreCase : Bool) (op : Combination) : Level :=
  { l with waiting := some (op, l.combined ignoreCase), items := .none }

end Level

def named? (name : Text) : Option CharClass :=
  let lower := CharClass.range 'a' 'z'
  let upper := CharClass.range 'A' 'Z'
  let digits := CharClass.range '0' '9'
  let alpha := CharClass.union lower upper
  let alnum := CharClass.union alpha digits
  let punct := CharClass.union (.union (.range '!' '/') (.range ':' '@')) (.union (.range '[' '\x60') (.range '\x7b' '~'))
  let names : List (Text × CharClass) := [
    ("alnum", alnum), ("alpha", alpha), ("ascii", .range '\x00' '\x7f'), ("blank", .anyOf "\t "),
    ("cntrl", .union (.range '\x00' '\x1f') (.only '\x7f')), ("digit", digits), ("graph", .range '!' '~'),
    ("lower", lower), ("print", .range ' ' '~'), ("punct", punct), ("space", .anyOf "\t\n\x0b\x0c\r "),
    ("upper", upper), ("word", .union alnum (.only '_')),
    ("xdigit", .union digits (.union (.range 'a' 'f') (.range 'A' 'F')))]
  names.lookup name

/-- Reads `:name:]` or `:^name:]`, the rest of a named class. -/
def readNamed? (t : Text) : Option (CharClass × Text) := do
  let r ← Text.after? t ":"
  let (negated, r) := match r with
    | '^' :: r => (true, r)
    | _ => (false, r)
  let (name, r) ← Text.cutAt? ':' r
  let r ← Text.after? r "]"
  let c ← named? name
  some (if negated then .compl c else c, r)

def readItem (t : Text) : Except PatternFault (Escape × Text) :=
  match t with
  | [] => .error .unclosedClass
  | '\\' :: r => Escape.read r
  | c :: r => .ok (.char c, r)

def readRange (t : Text) : Except PatternFault (CharClass × Text) := do
  let (first, r) ← readItem t
  let single : Except PatternFault CharClass := match first with
    | .char c => .ok (.only c)
    | .class c => .ok c
    | .assertion _ => .error .unknownEscape
  match r with
  | [] => .error .unclosedClass
  | ['-'] => .error .unclosedClass
  | '-' :: next :: r' =>
    if next = ']' ∨ next = '-' then single.map (·, r)
    else do
      let (last, rest) ← readItem (next :: r')
      match first, last with
      | .char a, .char b => if a ≤ b then .ok (.range a b, rest) else .error .reversedRange
      | _, _ => .error .rangeOfClasses
  | _ => single.map (·, r)

/-- Reads what may stand directly behind an opening bracket: a circumflex, hyphens and a closing bracket that
are meant as characters. -/
def readOpening (t : Text) : Level × Text :=
  let (negated, t) := match t with
    | '^' :: r => (true, r)
    | _ => (false, t)
  let hyphens := t.takeWhile (· == '-')
  let t := t.drop hyphens.length
  let level : Level := { negated }
  if hyphens.isEmpty then
    match t with
    | ']' :: r => (level.add (.only ']'), r)
    | _ => (level, t)
  else (level.add (.only '-'), t)

/-- Reads the rest of a class inside the open brackets `level` and `outer`, the innermost first. -/
def readWithin (ignoreCase : Bool) (level : Level) (outer : List Level) (t : Text) :
    Except PatternFault (CharClass × Text) :=
  let goOn (level : Level) (outer : List Level) (rest : Text) : Except PatternFault (CharClass × Text) :=
    if _h : rest.length < t.length then readWithin ignoreCase level outer rest else .error .unclosedClass
  match t with
  | [] => .error .unclosedClass
  | '[' :: r =>
    match readNamed? r with
    | some (c, rest) => goOn (level.add c) outer rest
    | none =>
      let (inner, rest) := readOpening r
      goOn inner (level :: outer) rest
  | ']' :: r =>
    let c := level.close ignoreCase
    match outer with
    | [] => .ok (c, r)
    | parent :: outer => goOn (parent.add c) outer r
  | '&' :: '&' :: r => goOn (level.combine ignoreCase .intersection) outer r
  | '-' :: '-' :: r => goOn (level.combine ignoreCase .difference) outer r
  | '~' :: '~' :: r => goOn (level.combine ignoreCase .symmetricDifference) outer r
  | _ =>
    match readRange t with
    | .error e => .error e
    | .ok (c, rest) => goOn (level.add c) outer rest
termination_by t.length

def read (ignoreCase : Bool) (t : Text) : Except PatternFault (CharClass × Text) :=
  let (level, rest) := readOpening t
  readWithin ignoreCase level [] rest

end Bracket

end SourceArchive
