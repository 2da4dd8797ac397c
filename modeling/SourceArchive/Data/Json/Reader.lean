import SourceArchive.Data.Value
import SourceArchive.Number.Digits
import SourceArchive.Number.Width

/-!
# Reading JSON

Whole numbers that fit into 64 bits are kept apart from all other numbers, and a pair of escapes for the halves of a
character gives the character.
-/

namespace SourceArchive

namespace Json

def skipBlanks (t : Text) : Text := t.dropWhile fun c => c == ' ' || c == '\n' || c == '\r' || c == '\t'

def readHex4 (t : Text) : Option (Nat × Text) :=
  match t with
  | a :: b :: c :: d :: rest => do
    let n ← valueIn? 16 [a, b, c, d]
    some (n, rest)
  | _ => none

/-- What follows a backslash and a `u`: a character, which may be written as two halves. -/
def readUnicode (t : Text) : Option (Char × Text) := do
  let (n, rest) ← readHex4 t
  if 0xd800 ≤ n ∧ n < 0xdc00 then
    let rest ← Text.after? rest "\\u"
    let (m, rest) ← readHex4 rest
    if 0xdc00 ≤ m ∧ m < 0xe000 then
      let c ← charOf? (0x10000 + (n - 0xd800) * 0x400 + (m - 0xdc00))
      some (c, rest)
    else none
  else
    let c ← charOf? n
    some (c, rest)

def escapes : List (Char × Char) := [
  ('"', '"'), ('\\', '\\'), ('/', '/'), ('b', '\x08'), ('f', '\x0c'), ('n', '\n'), ('r', '\r'), ('t', '\t')]

/-- The rest of a string behind its opening quotation mark; `read` is what has been read, backwards. -/
def readString (read : Text) (t : Text) : Option (Text × Text) :=
  match t with
  | [] => none
  | '"' :: rest => some (read.reverse, rest)
  | '\\' :: 'u' :: tail =>
    match readUnicode tail with
    | none => none
    | some (c, rest) => if _h : rest.length ≤ tail.length then readString (c :: read) rest else none
  | '\\' :: c :: rest =>
    match escapes.lookup c with
    | none => none
    | some d => readString (d :: read) rest
  | c :: rest => if c.toNat < 0x20 then none else readString (c :: read) rest
termination_by t.length

def readExponent (t : Text) : Option (Int × Text) :=
  let (negative, t) := match t with
    | '-' :: r => (true, r)
    | '+' :: r => (false, r)
    | _ => (false, t)
  let digits := t.takeWhile Char.isDigit
  if digits.isEmpty then none
  else
    let n : Int := decimalValue digits
    some (if negative then -n else n, t.drop digits.length)

def intValue (negative : Bool) (n : Nat) : Value :=
  let i : Int := if negative then -(n : Int) else n
  if (negative && n == 0) || !(fitsSigned i || fitsUnsigned i) then .real (.ofRatio negative n 1) else .int i

def readNumber (t : Text) : Option (Value × Text) := do
  let (negative, t) := match t with
    | '-' :: r => (true, r)
    | _ => (false, t)
  let whole := t.takeWhile Char.isDigit
  if whole.isEmpty ∨ (1 < whole.length ∧ whole.head? = some '0') then failure
  let t := t.drop whole.length
  let (fraction, t) ← match t with
    | '.' :: r =>
      let digits := r.takeWhile Char.isDigit
      if digits.isEmpty then none else some (some digits, r.drop digits.length)
    | _ => some (none, t)
  let (exponent, t) ← match t with
    | 'e' :: r | 'E' :: r => (readExponent r).map fun (e, rest) => (some e, rest)
    | _ => some (none, t)
  match fraction, exponent with
  | none, none => some (intValue negative (decimalValue whole), t)
  | _, _ =>
    let places := fraction.getD []
    some (.real (.ofDecimal negative (decimalValue (whole ++ places)) (exponent.getD 0 - places.length)), t)

mutual

/-- A value and what follows.  `fuel` bounds the number of steps. -/
def readValue (fuel : Nat) (t : Text) : Option (Value × Text) :=
  match fuel with
  | 0 => none
  | fuel + 1 =>
    match skipBlanks t with
    | [] => none
    | '"' :: rest => (readString [] rest).map fun (s, rest) => (.text s, rest)
    | '[' :: rest =>
      match skipBlanks rest with
      | ']' :: rest => some (.list [], rest)
      | _ => (readItems fuel rest).map fun (vs, rest) => (.list vs, rest)
    | '{' :: rest =>
      match skipBlanks rest with
      | '}' :: rest => some (.table [], rest)
      | _ => (readFields fuel rest).map fun (fs, rest) => (.table fs, rest)
    | t =>
      match Text.after? t "null", Text.after? t "true", Text.after? t "false" with
      | some rest, _, _ => some (.null, rest)
      | _, some rest, _ => some (.bool true, rest)
      | _, _, some rest => some (.bool false, rest)
      | _, _, _ => readNumber t

def readItems (fuel : Nat) (t : Text) : Option (List Value × Text) :=
  match fuel with
  | 0 => none
  | fuel + 1 =>
    match readValue fuel t with
    | none => none
    | some (v, rest) =>
      match skipBlanks rest with
      | ',' :: rest => (readItems fuel rest).map fun (vs, rest) => (v :: vs, rest)
      | ']' :: rest => some ([v], rest)
      | _ => none

def readFields (fuel : Nat) (t : Text) : Option (List (Text × Value) × Text) :=
  match fuel with
  | 0 => none
  | fuel + 1 =>
    match skipBlanks t with
    | '"' :: rest =>
      match readString [] rest with
      | none => none
      | some (key, rest) =>
        match skipBlanks rest with
        | ':' :: rest =>
          match readValue fuel rest with
          | none => none
          | some (v, rest) =>
            match skipBlanks rest with
            | ',' :: rest => (readFields fuel rest).map fun (fs, rest) => ((key, v) :: fs, rest)
            | '}' :: rest => some ([(key, v)], rest)
            | _ => none
        | _ => none
    | _ => none

end

def read (t : Text) : Option Value :=
  match readValue (2 * t.length + 2) t with
  | some (v, rest) => if (skipBlanks rest).isEmpty then some v else none
  | none => none

end Json

end SourceArchive
