import SourceArchive.Pattern.Basic

/-!
# Searching a text for a pattern

A search goes through the places of a text from left to right and takes the preferred match at the first place
that has one.  Further matches are looked for behind the last, so matches never overlap; behind an empty match
the search moves on by one character.
-/

namespace SourceArchive

/-- A match: where it starts, and where it ends with which captures. -/
structure Match where
  opened : Spot
  closed : Progress

namespace Match

def text (m : Match) : Text := m.opened.ahead.take (m.opened.left - m.closed.spot.left)

def behind (m : Match) : Text := m.closed.spot.ahead

/-- The text last captured under a number. -/
def group? (m : Match) (number : Nat) : Option Text :=
  (m.closed.captures.find? (·.number == number)).map (·.text)

/-- The text captured under a number; empty if there is none. -/
def group (m : Match) (number : Nat) : Text := (m.group? number).getD []

/-- Where the search goes on behind the match. -/
def resume? (m : Match) : Option Spot :=
  if m.closed.spot.left < m.opened.left then some m.closed.spot
  else m.closed.spot.next?.map (·.2)

end Match

namespace Pattern

def at? (p : Pattern) (s : Spot) : Option Match := (p.best? { spot := s }).map (⟨s, ·⟩)

/-- The first match at a place or further on. -/
def search (p : Pattern) (s : Spot) : Option Match :=
  match p.at? s with
  | some m => some m
  | none =>
    match _h : s.next? with
    | none => none
    | some (_, t) => search p t
termination_by s.left
decreasing_by exact Spot.left_lt_of_next? _h

def matchesFrom (p : Pattern) (s : Spot) : List Match :=
  match p.search s with
  | none => []
  | some m =>
    m :: match m.resume? with
      | none => []
      | some t => if _h : t.left < s.left then matchesFrom p t else []
termination_by s.left

def firstIn (p : Pattern) (t : Text) : Option Match := p.search (.start t)

def occursIn (p : Pattern) (t : Text) : Bool := (p.firstIn t).isSome

def matchesIn (p : Pattern) (t : Text) : List Match := p.matchesFrom (.start t)

/-- The text from a place on with `replacement` for each match. -/
def replaceFrom (p : Pattern) (replacement : Text) (s : Spot) : Text :=
  match p.search s with
  | none => s.ahead
  | some m =>
    s.ahead.take (s.left - m.opened.left) ++ replacement ++
      match m.resume? with
      | none => m.behind
      | some t =>
        if _h : t.left < s.left then
          m.behind.take (m.closed.spot.left - t.left) ++ replaceFrom p replacement t
        else m.behind
termination_by s.left

def replaceIn (p : Pattern) (replacement t : Text) : Text := p.replaceFrom replacement (.start t)

end Pattern

end SourceArchive
