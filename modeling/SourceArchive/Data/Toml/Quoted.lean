import SourceArchive.Data.Toml.Line
import SourceArchive.Number.Digits

/-!
# Strings in TOML

Strings stand on one line or on several, in quotation marks with escapes or in apostrophes without.  A line end
in a string on several lines is a line feed, and one directly behind the opening marks is not part of the string.
-/

namespace SourceArchive

namespace Toml

def escapes : List (Char × Char) := [
  ('b', '\x08'), ('t', '\t'), ('n', '\n'), ('f', '\x0c'), ('r', '\r'), ('"', '"'), ('\\', '\\')]

def readCodePoint (width : Nat) (t : Text) : Option (Char × Text) := do
  let digits := t.take width
  if digits.length = width then
    let c ← (valueIn? 16 digits).bind charOf?
    some (c, t.drop width)
  else none

/-- The character that an escape stands for, read behind the backslash, and what follows. -/
def readEscape (t : Text) : Option (Char × Text) :=
  match t with
  | [] => none
  | 'u' :: rest => readCodePoint 4 rest
  | 'U' :: rest => readCodePoint 8 rest
  | c :: rest => (escapes.lookup c).map (·, rest)

theorem length_le_of_readEscape {t rest : Text} {c : Char} (h : readEscape t = some (c, rest)) :
    rest.length ≤ t.length := by
  unfold readEscape at h
  have hex {width : Nat} {u : Text} (h : readCodePoint width u = some (c, rest)) : rest.length ≤ u.length := by
    simp only [readCodePoint] at h
    split at h
    · cases hc : (valueIn? 16 (u.take width)).bind charOf? with
      | none => simp [hc] at h
      | some d =>
        simp only [hc, Option.bind_eq_bind, Option.bind_some, Option.some.injEq, Prod.mk.injEq] at h
        simp [← h.2]
    · cases h
  split at h
  · cases h
  · exact Nat.le_succ_of_le (hex h)
  · exact Nat.le_succ_of_le (hex h)
  · rename_i d r _ _
    cases hd : escapes.lookup d with
    | none => simp [hd] at h
    | some e =>
      simp only [hd, Option.map_some, Option.some.injEq, Prod.mk.injEq] at h
      simp [← h.2]

/-- The rest of a string in quotation marks on one line; `read` is what has been read, backwards. -/
def readBasic (read : Text) (t : Text) : Option (Text × Text) :=
  match t with
  | [] => none
  | '"' :: rest => some (read.reverse, rest)
  | '\\' :: tail =>
    match h : readEscape tail with
    | none => none
    | some (c, rest) =>
      have := length_le_of_readEscape h
      readBasic (c :: read) rest
  | c :: rest => if inComment c then readBasic (c :: read) rest else none
termination_by t.length

def readLiteral (t : Text) : Option (Text × Text) :=
  let content := t.takeWhile fun c => inComment c && c != '\''
  match t.drop content.length with
  | '\'' :: rest => some (content, rest)
  | _ => none

def skipLineEnd (t : Text) : Text := (afterLineEnd? t).getD t

/-- The end of a string on several lines that is closed by three copies of a mark: up to two further copies
belong to the string.  The text begins behind the three. -/
def closeLong (mark : Char) (read : Text) (t : Text) : Text × Text :=
  let extra := (t.take 2).takeWhile (· == mark)
  (read.reverse ++ extra, t.drop extra.length)

/-- What follows a backslash at the end of a line: the first character that is neither blank nor a line end. -/
def afterContinuation? (t : Text) : Option Text :=
  (afterLineEnd? (skipBlanks t)).map skipAll
where
  skipAll (t : Text) : Text :=
    match _h : afterLineEnd? (skipBlanks t) with
    | none => skipBlanks t
    | some rest => skipAll rest
  termination_by t.length
  decreasing_by
    have h1 := length_skipBlanks_le t
    have h3 := length_lt_of_afterLineEnd? _h
    omega

/-- The rest of a string in quotation marks on several lines.  `fuel` bounds the number of steps. -/
def readLongBasic (fuel : Nat) (read : Text) (t : Text) : Option (Text × Text) :=
  match fuel with
  | 0 => none
  | fuel + 1 =>
    match t with
    | [] => none
    | '"' :: '"' :: '"' :: rest => some (closeLong '"' read rest)
    | '\\' :: tail =>
      match afterContinuation? tail with
      | some rest => readLongBasic fuel read rest
      | none =>
        match readEscape tail with
        | none => none
        | some (c, rest) => readLongBasic fuel (c :: read) rest
    | c :: rest =>
      match afterLineEnd? t with
      | some rest => readLongBasic fuel ('\n' :: read) rest
      | none => if inComment c then readLongBasic fuel (c :: read) rest else none

def readLongLiteral (fuel : Nat) (read : Text) (t : Text) : Option (Text × Text) :=
  match fuel with
  | 0 => none
  | fuel + 1 =>
    match t with
    | [] => none
    | '\'' :: '\'' :: '\'' :: rest => some (closeLong '\'' read rest)
    | c :: rest =>
      match afterLineEnd? t with
      | some rest => readLongLiteral fuel ('\n' :: read) rest
      | none => if inComment c then readLongLiteral fuel (c :: read) rest else none

def readShort (t : Text) : Option (Text × Text) :=
  match t with
  | '"' :: rest => readBasic [] rest
  | '\'' :: rest => readLiteral rest
  | _ => none

def readQuoted (t : Text) : Option (Text × Text) :=
  match t with
  | '"' :: '"' :: '"' :: rest => readLongBasic (rest.length + 1) [] (skipLineEnd rest)
  | '\'' :: '\'' :: '\'' :: rest => readLongLiteral (rest.length + 1) [] (skipLineEnd rest)
  | _ => readShort t

end Toml

end SourceArchive
