import SourceArchive.Data.Value
import SourceArchive.Number.Shortest

/-!
# Writing JSON

Values are written on one line, or one item to a line with two blanks for each level.  Numbers that are not whole
by type always have a fraction or an exponent.
-/

namespace SourceArchive

namespace Json

def shortEscapes : List (Char × Text) := [
  ('"', "\\\""), ('\\', "\\\\"), ('\x08', "\\b"), ('\x0c', "\\f"), ('\n', "\\n"), ('\r', "\\r"), ('\t', "\\t")]

def writeChar (c : Char) : Text :=
  match shortEscapes.lookup c with
  | some t => t
  | none =>
    if c.toNat < 0x20 then
      "\\u00" ++ [Nat.digitChar (c.toNat / 16), Nat.digitChar (c.toNat % 16)]
    else [c]

def writeText (t : Text) : Text := '"' :: t.flatMap writeChar ++ ['"']

/-- Where numbers change from positional to exponential notation: a point before the first digit may be followed
by fewer than `zeros` zeros, and at most `whole` digits may stand before the point. -/
structure Positional where
  whole : Int
  zeros : Int

/-- Up to sixteen digits before the point, and up to four zeros behind it before the first digit. -/
def positional : Positional := ⟨16, 5⟩

def writeDecimal (n : Positional) (d : Decimal) : Text :=
  let digits := Nat.toDigits 10 d.digits
  let point := digits.length + d.exponent
  if 0 ≤ d.exponent ∧ point ≤ n.whole then digits ++ List.replicate d.exponent.toNat '0' ++ ".0"
  else if 0 < point ∧ point ≤ n.whole then digits.take point.toNat ++ "." ++ digits.drop point.toNat
  else if -n.zeros < point ∧ point ≤ 0 then "0." ++ List.replicate (-point).toNat '0' ++ digits
  else
    let exponent := point - 1
    let sign : Text := if exponent < 0 then "-" else ""
    let mantissa := if digits.length = 1 then digits else digits.take 1 ++ "." ++ digits.drop 1
    mantissa ++ "e" ++ sign ++ Nat.toDigits 10 exponent.natAbs

/-- The written form of a number; what is not finite is null. -/
def writeReal : Binary64 → Text
  | .finite negative m e =>
    let sign : Text := if negative then "-" else ""
    if m = 0 then sign ++ "0.0" else sign ++ writeDecimal positional (Shortest.ofMagnitude m e)
  | _ => "null"

def writeInt (n : Int) : Text :=
  if n < 0 then '-' :: decimal n.natAbs else decimal n.natAbs

mutual

/-- A value on one line. -/
def write : Value → Text
  | .null => "null"
  | .bool b => if b then "true" else "false"
  | .int n => writeInt n
  | .real x => writeReal x
  | .text t => writeText t
  | .moment => "null"
  | .list items => '[' :: writeItems items ++ [']']
  | .table fields => '{' :: writeFields fields ++ ['}']

def writeItems : List Value → Text
  | [] => []
  | [v] => write v
  | v :: rest => write v ++ "," ++ writeItems rest

def writeFields : List (Text × Value) → Text
  | [] => []
  | [(k, v)] => writeText k ++ ":" ++ write v
  | (k, v) :: rest => writeText k ++ ":" ++ write v ++ "," ++ writeFields rest

end

def indent (level : Nat) : Text := List.replicate (2 * level) ' '

mutual

/-- A value with one item to a line, at a level. -/
def writePretty (level : Nat) : Value → Text
  | .list (v :: vs) => "[\n" ++ prettyItems (level + 1) (v :: vs) ++ "\n" ++ indent level ++ "]"
  | .table (f :: fs) => ['{', '\n'] ++ prettyFields (level + 1) (f :: fs) ++ "\n" ++ indent level ++ ['}']
  | v => write v

def prettyItems (level : Nat) : List Value → Text
  | [] => []
  | [v] => indent level ++ writePretty level v
  | v :: rest => indent level ++ writePretty level v ++ ",\n" ++ prettyItems level rest

def prettyFields (level : Nat) : List (Text × Value) → Text
  | [] => []
  | [(k, v)] => indent level ++ writeText k ++ ": " ++ writePretty level v
  | (k, v) :: rest =>
    indent level ++ writeText k ++ ": " ++ writePretty level v ++ ",\n" ++ prettyFields level rest

end

def pretty (v : Value) : Text := writePretty 0 v

end Json

end SourceArchive
