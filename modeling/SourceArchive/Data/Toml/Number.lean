import SourceArchive.Data.Value
import SourceArchive.Number.Digits
import SourceArchive.Number.Width

/-!
# Numbers in TOML

Digits may have single underscores between them.  Whole numbers fit into 64 bits with a sign; they may be written
in base sixteen, eight or two without one.
-/

namespace SourceArchive

namespace Toml

/-- Digits in a base, with single underscores between them, and what follows. -/
def readDigits (base : Nat) (t : Text) : Option (Text × Text) :=
  match t with
  | [] => none
  | c :: rest => if isDigitIn base c then (readMore rest).map fun (ds, rest) => (c :: ds, rest) else none
where
  readMore (t : Text) : Option (Text × Text) :=
    match t with
    | '_' :: c :: rest =>
      if isDigitIn base c then (readMore rest).map fun (ds, rest) => (c :: ds, rest) else none
    | ['_'] => none
    | c :: rest =>
      if isDigitIn base c then (readMore rest).map fun (ds, rest) => (c :: ds, rest) else some ([], t)
    | [] => some ([], [])

/-- A sign, if there is one: whether it is a minus, and what follows. -/
def readSign (t : Text) : Bool × Text :=
  match t with
  | '-' :: rest => (true, rest)
  | '+' :: rest => (false, rest)
  | _ => (false, t)

/-- A whole number in a range of 64 bits. -/
def ofInt? (n : Int) : Option Value := if fitsSigned n then some (.int n) else none

/-- A whole number in a base that is not ten, read behind what introduces the base. -/
def readInBase (base : Nat) (t : Text) : Option (Value × Text) := do
  let (digits, rest) ← readDigits base t
  let v ← (valueIn? base digits).bind fun n => ofInt? n
  some (v, rest)

/-- The digits before the point: a zero, or digits of which the first is no zero. -/
def readWhole (t : Text) : Option (Text × Text) :=
  match t with
  | '0' :: rest => some (['0'], rest)
  | _ => readDigits 10 t

def readFraction (t : Text) : Option (Option Text × Text) :=
  match t with
  | '.' :: rest => (readDigits 10 rest).map fun (ds, rest) => (some ds, rest)
  | _ => some (none, t)

def readExponent (t : Text) : Option (Option Int × Text) :=
  match t with
  | 'e' :: rest | 'E' :: rest =>
    let (negative, rest) := readSign rest
    (readDigits 10 rest).map fun (ds, rest) =>
      (some (if negative then -(decimalValue ds : Int) else decimalValue ds), rest)
  | _ => some (none, t)

/-- A number that is not whole by type.  What is too large for one is refused. -/
def ofReal? (x : Binary64) : Option Value := if x = .infinite false then none else some (.real x)

def readDecimal (negative : Bool) (t : Text) : Option (Value × Text) := do
  let (whole, t) ← readWhole t
  let (fraction, t) ← readFraction t
  let (exponent, t) ← readExponent t
  match fraction, exponent with
  | none, none =>
    let n : Int := decimalValue whole
    let v ← ofInt? (if negative then -n else n)
    some (v, t)
  | _, _ =>
    let places := fraction.getD []
    let v ← ofReal? (.ofDecimal negative (decimalValue (whole ++ places)) (exponent.getD 0 - places.length))
    some (v, t)

def readNumber (t : Text) : Option (Value × Text) :=
  match t with
  | '0' :: 'x' :: rest => readInBase 16 rest
  | '0' :: 'o' :: rest => readInBase 8 rest
  | '0' :: 'b' :: rest => readInBase 2 rest
  | _ =>
    let (negative, rest) := readSign t
    match Text.after? rest "inf", Text.after? rest "nan" with
    | some rest, _ => some (.real (.infinite negative), rest)
    | _, some rest => some (.real .nan, rest)
    | _, _ => readDecimal negative rest

end Toml

end SourceArchive
