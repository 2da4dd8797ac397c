import SourceArchive.Text.Basic

/-!
# Globs

A glob describes locations name by name.  Within a name a star stands for any characters, a question mark for one,
and brackets for one out of a set; two stars in place of a name stand for any number of directories.
-/

namespace SourceArchive

namespace Glob

inductive Piece where
  | char (c : Char)
  | anyChar
  | anyRun
  /-- One character in the ranges, or outside them if `negated`. -/
  | oneOf (negated : Bool) (ranges : List (Char × Char))
deriving Repr, DecidableEq

/-- A name, or any number of directories. -/
inductive Segment where
  | directories
  | name (pieces : List Piece)
deriving Repr, DecidableEq

def Piece.accepts (c : Char) : Piece → Bool
  | char d => c == d
  | anyChar => true
  | anyRun => false
  | oneOf negated ranges => ranges.any (fun (low, high) => low ≤ c && c ≤ high) != negated

/-- Whether parts describe a name. -/
def matchesName : List Piece → Text → Bool
  | [], t => t.isEmpty
  | .anyRun :: ps, [] => matchesName ps []
  | .anyRun :: ps, c :: r => matchesName ps (c :: r) || matchesName (.anyRun :: ps) r
  | _ :: _, [] => false
  | p :: ps, c :: r => p.accepts c && matchesName ps r
termination_by ps t => ps.length + t.length

def describes : List Segment → List Text → Bool
  | [], l => l.isEmpty
  | .directories :: ss, [] => describes ss []
  | .directories :: ss, n :: l => describes ss (n :: l) || describes (.directories :: ss) l
  | .name _ :: _, [] => false
  | .name ps :: ss, n :: l => matchesName ps n && describes ss l
termination_by ss l => ss.length + l.length

def readRanges : Text → Option (List (Char × Char) × Text)
  | [] => none
  | ']' :: rest => some ([], rest)
  | low :: '-' :: ']' :: rest => some ([(low, low), ('-', '-')], rest)
  | low :: '-' :: high :: rest =>
    if high < low then none else (readRanges rest).map fun (rs, rest) => ((low, high) :: rs, rest)
  | c :: rest => (readRanges rest).map fun (rs, rest) => ((c, c) :: rs, rest)

/-- A set, read behind its opening bracket: a bracket in first place belongs to it. -/
def readSet (t : Text) : Option (Piece × Text) :=
  let (negated, t) := match t with
    | '!' :: rest | '^' :: rest => (true, rest)
    | _ => (false, t)
  match t with
  | ']' :: rest => (readRanges rest).map fun (rs, rest) => (.oneOf negated ((']', ']') :: rs), rest)
  | _ => (readRanges t).map fun (rs, rest) => (.oneOf negated rs, rest)

/-- The parts of a written name.  `fuel` bounds the number of steps. -/
def readPieces (fuel : Nat) (t : Text) : Option (List Piece) :=
  match fuel, t with
  | 0, _ => none
  | _ + 1, [] => some []
  | fuel + 1, '*' :: rest => (readPieces fuel rest).map (.anyRun :: ·)
  | fuel + 1, '?' :: rest => (readPieces fuel rest).map (.anyChar :: ·)
  | fuel + 1, '[' :: rest => do
    let (piece, rest) ← readSet rest
    (readPieces fuel rest).map (piece :: ·)
  | _ + 1, ['\\'] => none
  | fuel + 1, '\\' :: c :: rest => (readPieces fuel rest).map (.char c :: ·)
  | fuel + 1, c :: rest => (readPieces fuel rest).map (.char c :: ·)

def readSegment (t : Text) : Option Segment :=
  if t = "**" then some .directories else (readPieces (t.length + 1) t).map .name

/-- A written glob; none if it is malformed. -/
def read (t : Text) : Option (List Segment) := (Text.splitAt '/' t).mapM readSegment

end Glob

end SourceArchive
