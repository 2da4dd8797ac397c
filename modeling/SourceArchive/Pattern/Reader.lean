import SourceArchive.Pattern.Bracket

/-!
# Reading written patterns

The usual notation of regular expressions: characters, `.`, bracketed classes, escapes, groups, `|`, the
repetitions `*`, `+`, `?` and counts in braces, each lazy with a `?` behind it, and switches such as `(?i)` that
hold to the end of their group.  Look-around and references to captures do not exist.

Of the notation that is in use for keyword patterns this is a part.  Classes of Unicode properties, verbose patterns, switching
Unicode off and the word edges written with braces or angle brackets are refused.

The reader goes through the text once, construct by construct.  Reading a construct (`readConstruct`) looks at the open groups for
nothing but whether a count may stand here, and what it does to the open groups (`State.apply`) does not look at the text.
-/

namespace SourceArchive

namespace PatternReader

structure Switches where
  ignoreCase : Bool := false
  multiLine : Bool := false
  dotMatchesAll : Bool := false
  swapLaziness : Bool := false
deriving Repr, DecidableEq

/-- Sets one switch.  Characters are those of Unicode, which cannot be switched off. -/
def Switches.set (s : Switches) (c : Char) (on : Bool) : Option Switches :=
  match c with
  | 'i' => some { s with ignoreCase := on }
  | 'm' => some { s with multiLine := on }
  | 's' => some { s with dotMatchesAll := on }
  | 'U' => some { s with swapLaziness := on }
  | 'u' => if on then some s else none
  | _ => none

/-- An open group: how to finish it, the switches outside it, the alternatives before the last `|`, and the
pieces behind it, the latest first.  A piece is `none` where switches were set, which cannot be repeated. -/
structure Level where
  finish : Option Nat
  outside : Switches
  alternatives : List Pattern := []
  pieces : List (Option Pattern) := []

namespace Level

def push (l : Level) (p : Pattern) : Level := { l with pieces := some p :: l.pieces }

/-- The pieces since the last `|`, one after the other. -/
def sequence (l : Level) : Pattern := Pattern.sequence (l.pieces.reverse.filterMap id)

def bar (l : Level) : Level := { l with alternatives := l.sequence :: l.alternatives, pieces := [] }

def body (l : Level) : Pattern := Pattern.oneOf (l.sequence :: l.alternatives).reverse

def close (l : Level) : Pattern :=
  match l.finish with
  | none => l.body
  | some number => .capture number l.body

end Level

/-- How often a piece is repeated: at least `least` times and, if there is a bound, at most `most` times. -/
structure Count where
  least : Nat
  most : Option Nat

/-- A pattern of more parts than this is refused. -/
def sizeLimit : Nat := 200000

def size : Pattern → Nat
  | .empty | .one _ | .assert _ => 1
  | .seq a b | .alt a b => size a + size b + 1
  | .star _ a | .capture _ a => size a + 1

/-- One round of `a` and then `rest`, or nothing; the round is preferred if `eager`. -/
def maybe (eager : Bool) (a rest : Pattern) : Pattern :=
  if eager then .alt (.seq a rest) .empty else .alt .empty (.seq a rest)

def Count.apply (n : Count) (eager : Bool) (a : Pattern) : Except PatternFault Pattern :=
  let copies := n.most.getD n.least
  if sizeLimit < (size a + 1) * (copies + 1) then .error .tooLarge
  else
    let required := List.replicate n.least a
    match n.most with
    | none => .ok (Pattern.sequence (required ++ [.star eager a]))
    | some most =>
      let extra := (List.replicate (most - n.least) a).foldr (maybe eager) .empty
      .ok (Pattern.sequence (required ++ [extra]))

/-- Whether the repetition that was just read is eager, and what follows. -/
def readEagerness (s : Switches) (t : Text) : Bool × Text :=
  match t with
  | '?' :: r => (s.swapLaziness, r)
  | _ => (!s.swapLaziness, t)

/-- Reads a number with white space around it; fails beyond 32 bits. -/
def readNumber (t : Text) : Except PatternFault (Option Nat × Text) :=
  let t := Text.trimStart t
  let digits := t.takeWhile Char.isDigit
  let rest := Text.trimStart (t.drop digits.length)
  if digits.isEmpty then .ok (none, rest)
  else
    let n := decimalValue digits
    if n < 4294967296 then .ok (some n, rest) else .error .malformedCount

def readCount (t : Text) : Except PatternFault (Count × Text) := do
  let (least, r) ← readNumber t
  match r, least with
  | '}' :: rest, some n => .ok (⟨n, some n⟩, rest)
  | ',' :: '}' :: rest, some n => .ok (⟨n, none⟩, rest)
  | ',' :: r, some n =>
    let (most, r) ← readNumber r
    match r, most with
    | '}' :: rest, some m => if n ≤ m then .ok (⟨n, some m⟩, rest) else .error .malformedCount
    | _, _ => .error .malformedCount
  | _, _ => .error .malformedCount

def repeatLast (l : Level) (n : Count) (eager : Bool) : Except PatternFault Level :=
  match l.pieces with
  | some p :: pieces => (n.apply eager p).map fun q => { l with pieces := some q :: pieces }
  | _ => .error .nothingRepeated

inductive Opening where
  /-- A group whose contents are read with these switches; `name?` is its name, if it has one. -/
  | group (captured : Bool) (name? : Option Text) (inside : Switches)
  /-- Switches for the rest of the group around. -/
  | switches (s : Switches)

def isGroupName (t : Text) : Bool :=
  match t with
  | [] => false
  | c :: r => (c == '_' || c.isAlpha) && r.all fun c => c == '_' || c == '.' || c == '[' || c == ']' || c.isAlphanum

def readName (s : Switches) (t : Text) : Except PatternFault (Opening × Text) :=
  match Text.cutAt? '>' t with
  | some (name, r) => if isGroupName name then .ok (.group true (some name) s, r) else .error .unknownGroup
  | none => .error .unknownGroup

/-- Reads the switches in front of a group, or for the rest of the group around; `seen` are the signs so far.  No sign may stand
twice, and a hyphen needs a switch behind it. -/
def readSwitched (s : Switches) (on : Bool) (seen : List Char) : Text → Except PatternFault (Opening × Text)
  | [] => .error .unfinishedSwitches
  | c :: r =>
    if c = ')' ∨ c = ':' then
      if seen.head? = some '-' then .error .unknownGroup
      else if c = ':' then .ok (.group false none s, r)
      else if seen.isEmpty then .error .nothingRepeated
      else .ok (.switches s, r)
    else if c ∈ seen then .error .unknownGroup
    else if c = '-' then readSwitched s false (c :: seen) r
    else match s.set c on with
      | some s => readSwitched s on (c :: seen) r
      | none => .error .unknownGroup

/-- Reads the opening of a group whose parenthesis has been read. -/
def readOpening (s : Switches) (t : Text) : Except PatternFault (Opening × Text) :=
  match t with
  | '?' :: 'P' :: '<' :: r => readName s r
  | '?' :: '<' :: '=' :: _ => .error .unknownGroup
  | '?' :: '<' :: '!' :: _ => .error .unknownGroup
  | '?' :: '<' :: r => readName s r
  | '?' :: r => readSwitched s true [] r
  | _ => .ok (.group true none s, t)

def charPattern (s : Switches) (c : Char) : Pattern := .one (Bracket.foldIf s.ignoreCase (.only c))

def escapePattern (s : Switches) : Escape → Pattern
  | .char c => charPattern s c
  | .class c => .one c
  | .assertion a => .assert a

inductive Construct where
  /-- A group opens, or switches are set. -/
  | opened (o : Opening)
  | closed
  | bar
  | again (n : Count) (eager : Bool)
  | piece (p : Pattern)

/-- A repetition, read up to the sign of laziness that may follow. -/
def readAgain (s : Switches) (n : Count) (t : Text) : Construct × Text :=
  (.again n (readEagerness s t).1, (readEagerness s t).2)

/-- Reads the construct that begins with `c`.  A count may only stand behind what can be repeated. -/
def readConstruct (s : Switches) (repeatable : Bool) (c : Char) (r : Text) : Except PatternFault (Construct × Text) :=
  match c with
  | '(' => (readOpening s r).map fun (o, rest) => (.opened o, rest)
  | ')' => .ok (.closed, r)
  | '|' => .ok (.bar, r)
  | '[' => (Bracket.read s.ignoreCase r).map fun (c, rest) => (.piece (.one c), rest)
  | '*' => .ok (readAgain s ⟨0, none⟩ r)
  | '+' => .ok (readAgain s ⟨1, none⟩ r)
  | '?' => .ok (readAgain s ⟨0, some 1⟩ r)
  | '{' => if repeatable then (readCount r).map fun (n, rest) => readAgain s n rest else .error .nothingRepeated
  | '.' => .ok (.piece (.one (if s.dotMatchesAll then .all else .compl (.only '\n'))), r)
  | '^' => .ok (.piece (.assert (if s.multiLine then .lineStart else .textStart)), r)
  | '$' => .ok (.piece (.assert (if s.multiLine then .lineEnd else .textEnd)), r)
  | '\\' => (Escape.read r).map fun (e, rest) => (.piece (escapePattern s e), rest)
  | _ => .ok (.piece (charPattern s c), r)

/-- How far the reader has come: the switches, the number of captures, the names of groups, the latest first, and the open
groups, the innermost first. -/
structure State where
  switches : Switches
  groups : Nat
  names : List Text
  level : Level
  outer : List Level

namespace State

def start (s : Switches) : State :=
  { switches := s, groups := 0, names := [], level := { finish := none, outside := {} }, outer := [] }

def repeatable (st : State) : Bool := st.level.pieces.head?.join.isSome

/-- What a construct does to the open groups. -/
def apply (st : State) : Construct → Except PatternFault State
  | .opened (.switches inside) =>
    .ok { st with switches := inside, level := { st.level with pieces := none :: st.level.pieces } }
  | .opened (.group captured name? inside) =>
    let number := if captured then st.groups + 1 else st.groups
    .ok { switches := inside, groups := number, names := name?.toList ++ st.names, outer := st.level :: st.outer,
          level := { finish := if captured then some number else none, outside := st.switches } }
  | .closed =>
    match st.outer with
    | [] => .error .strayParenthesis
    | parent :: outer =>
      .ok { st with switches := st.level.outside, level := parent.push st.level.close, outer }
  | .bar => .ok { st with level := st.level.bar }
  | .again n eager => (repeatLast st.level n eager).map fun level => { st with level }
  | .piece p => .ok { st with level := st.level.push p }

def step (st : State) (c : Char) (r : Text) : Except PatternFault (State × Text) :=
  (readConstruct st.switches st.repeatable c r).bind fun (k, rest) => (st.apply k).map fun st => (st, rest)

def run (st : State) (t : Text) : Except PatternFault State :=
  match t with
  | [] => .ok st
  | c :: r =>
    match st.step c r with
    | .error f => .error f
    | .ok (st, rest) => if _h : rest.length < (c :: r).length then run st rest else .error .tooLarge
termination_by t.length
decreasing_by exact _h

/-- At the end of the text all groups must be closed, and no two may have one name. -/
def finish (st : State) : Except PatternFault Pattern :=
  if !st.outer.isEmpty then .error .unclosedGroup
  else if st.names.Nodup then .ok st.level.close
  else .error .repeatedName

end State

end PatternReader

def Pattern.read (t : Text) : Except PatternFault Pattern :=
  ((PatternReader.State.start {}).run t).bind PatternReader.State.finish

end SourceArchive
