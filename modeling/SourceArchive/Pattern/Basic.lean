import SourceArchive.Pattern.CharClass

/-!
# Patterns

Patterns are regular expressions with captures, read with a preference: of an alternative the left side is
preferred, and a repetition prefers one more round (`eager`) or one less.  A match at a place is the most
preferred way to match there.

Two readings are given.  `Pattern.outcomes` lists all ways to match at a place, the preferred first, and is what
theorems are about.  `Pattern.run` looks for the first way that a continuation accepts, without building the
list, and is what searches use; `run_eq_findSome?` says that they agree.
-/

namespace SourceArchive

/-- A condition on a place in the searched text. -/
inductive Assertion where
  | wordEdge
  | noWordEdge
  | textStart
  | textEnd
  | lineStart
  | lineEnd
deriving Repr, DecidableEq

/-- A regular expression with numbered captures. -/
inductive Pattern where
  | empty
  | one (c : CharClass)
  | seq (a b : Pattern)
  /-- `a`, or else `b`. -/
  | alt (a b : Pattern)
  /-- Any number of rounds of `a`, each of at least one character. -/
  | star (eager : Bool) (a : Pattern)
  /-- `a`, whose text is kept under a number. -/
  | capture (number : Nat) (a : Pattern)
  | assert (a : Assertion)
deriving Repr, DecidableEq

/-- A place in a text: the character before it, what is ahead and how much that is. -/
structure Spot where
  previous : Option Char
  ahead : Text
  left : Nat
  left_eq : left = ahead.length

namespace Spot

def between (previous : Option Char) (ahead : Text) : Spot := ⟨previous, ahead, ahead.length, rfl⟩

def start (t : Text) : Spot := between none t

/-- The character ahead and the place behind it. -/
def next? (s : Spot) : Option (Char × Spot) :=
  match h : s.ahead with
  | [] => none
  | c :: r => some (c, ⟨some c, r, s.left - 1, by simp [s.left_eq, h]⟩)

theorem left_lt_of_next? {s t : Spot} {c : Char} (h : s.next? = some (c, t)) : t.left < s.left := by
  unfold next? at h
  split at h
  · simp at h
  · rename_i heq
    simp only [Option.some.injEq, Prod.mk.injEq] at h
    obtain ⟨_, rfl⟩ := h
    simp [s.left_eq, heq]

def isWordEdge (s : Spot) : Bool := s.previous.any isWordChar != s.ahead.head?.any isWordChar

end Spot

def Assertion.holdsAt (s : Spot) : Assertion → Bool
  | wordEdge => s.isWordEdge
  | noWordEdge => !s.isWordEdge
  | textStart => s.previous.isNone
  | textEnd => s.ahead.isEmpty
  | lineStart => s.previous.isNone || s.previous == some '\n'
  | lineEnd => s.ahead.isEmpty || s.ahead.head? == some '\n'

/-- A captured text: the first `size` characters of `from`. -/
structure Capture where
  number : Nat
  source : Text
  size : Nat

def Capture.text (c : Capture) : Text := c.source.take c.size

/-- How far a match has come: its place and its captures, the latest first. -/
structure Progress where
  spot : Spot
  captures : List Capture := []

namespace Pattern

def step? (c : CharClass) (s : Progress) : Option Progress :=
  match s.spot.next? with
  | none => none
  | some (x, t) => if c.has x then some { s with spot := t } else none

def close (number : Nat) (opened : Spot) (t : Progress) : Progress :=
  { t with captures := ⟨number, opened.ahead, opened.left - t.spot.left⟩ :: t.captures }

/-- All ways to do any number of rounds, each of which must move on. -/
def rounds (eager : Bool) (round : Progress → List Progress) (s : Progress) : List Progress :=
  let more := (round s).flatMap fun t => if _h : t.spot.left < s.spot.left then rounds eager round t else []
  if eager then more ++ [s] else s :: more
termination_by s.spot.left

/-- All ways to match at a place, the preferred first. -/
def outcomes : Pattern → Progress → List Progress
  | empty, s => [s]
  | one c, s => (step? c s).toList
  | seq a b, s => (a.outcomes s).flatMap b.outcomes
  | alt a b, s => a.outcomes s ++ b.outcomes s
  | star eager a, s => rounds eager a.outcomes s
  | capture i a, s => (a.outcomes s).map (close i s.spot)
  | assert a, s => if a.holdsAt s.spot then [s] else []

section Run

variable {β : Type}

/-- The first way to do rounds that `k` accepts. -/
def runRounds (eager : Bool) (round : Progress → (Progress → Option β) → Option β) (s : Progress)
    (k : Progress → Option β) : Option β :=
  if eager then
    match round s fun t => if _h : t.spot.left < s.spot.left then runRounds eager round t k else none with
    | some b => some b
    | none => k s
  else
    match k s with
    | some b => some b
    | none => round s fun t => if _h : t.spot.left < s.spot.left then runRounds eager round t k else none
termination_by s.spot.left

/-- The first way to match that `k` accepts. -/
def run : Pattern → Progress → (Progress → Option β) → Option β
  | empty, s, k => k s
  | one c, s, k => (step? c s).bind k
  | seq a b, s, k => a.run s fun t => b.run t k
  | alt a b, s, k =>
    match a.run s k with
    | some r => some r
    | none => b.run s k
  | star eager a, s, k => runRounds eager a.run s k
  | capture i a, s, k => a.run s fun t => k (close i s.spot t)
  | assert a, s, k => if a.holdsAt s.spot then k s else none

private theorem findSome?_flatMap {α γ : Type} (f : γ → Option β) (g : α → List γ) (l : List α) :
    (l.flatMap g).findSome? f = l.findSome? fun a => (g a).findSome? f := by
  induction l with
  | nil => rfl
  | cons a l ih =>
    simp only [List.flatMap_cons, List.findSome?_append, List.findSome?_cons, ih]
    cases (g a).findSome? f <;> rfl

theorem runRounds_eq_findSome? {eager : Bool}
    {round : Progress → (Progress → Option β) → Option β} {ways : Progress → List Progress}
    (hround : ∀ s k, round s k = (ways s).findSome? k) (s : Progress) (k : Progress → Option β) :
    runRounds eager round s k = (rounds eager ways s).findSome? k := by
  have hmore : (round s fun t => if _h : t.spot.left < s.spot.left then runRounds eager round t k else none)
      = ((ways s).flatMap fun t =>
          if _h : t.spot.left < s.spot.left then rounds eager ways t else []).findSome? k := by
    rw [hround, findSome?_flatMap]
    congr 1
    funext t
    split
    · exact runRounds_eq_findSome? hround t k
    · rfl
  rw [runRounds, rounds, hmore]
  cases eager
  · simp only [Bool.false_eq_true, if_false, List.findSome?_cons]
    cases k s <;> rfl
  · simp only [if_true, List.findSome?_append, List.findSome?_cons, List.findSome?_nil]
    generalize List.findSome? k (List.flatMap _ (ways s)) = found
    cases found <;> cases k s <;> rfl
termination_by s.spot.left

/-- The search with a continuation finds the first outcome that it accepts. -/
theorem run_eq_findSome? (p : Pattern) (s : Progress) (k : Progress → Option β) :
    p.run s k = (p.outcomes s).findSome? k := by
  induction p generalizing s k with
  | empty => simp [run, outcomes]
  | one c =>
    simp only [run, outcomes]
    cases step? c s <;> simp
  | seq a b iha ihb =>
    simp only [run, outcomes, iha, findSome?_flatMap]
    congr 1
    funext t
    exact ihb t k
  | alt a b iha ihb =>
    simp only [run, outcomes, iha, ihb, List.findSome?_append]
    cases (a.outcomes s).findSome? k <;> rfl
  | star eager a ih => exact runRounds_eq_findSome? ih s k
  | capture i a ih =>
    simp only [run, outcomes, ih, List.findSome?_map]
    rfl
  | assert a =>
    simp only [run, outcomes]
    split <;> simp

end Run

def best? (p : Pattern) (s : Progress) : Option Progress := p.run s some

theorem best?_eq_head? (p : Pattern) (s : Progress) : p.best? s = (p.outcomes s).head? := by
  rw [best?, run_eq_findSome?]
  cases p.outcomes s <;> rfl

end Pattern

end SourceArchive
