import SourceArchive.Number.Digits

/-!
# Dates and times in TOML

A moment is a date, a time, or both, in the latter case possibly with an offset.  Only its form is looked at:
the settings of the program hold no moments.
-/

namespace SourceArchive

namespace Toml

/-- A number of exactly `width` digits in a range, and what follows. -/
def readPadded (width low high : Nat) (t : Text) : Option (Nat × Text) :=
  let digits := t.take width
  let n := decimalValue digits
  if digits.length = width ∧ digits.all Char.isDigit ∧ low ≤ n ∧ n ≤ high then some (n, t.drop width) else none

def isLeapYear (year : Nat) : Bool := year % 4 = 0 && (year % 100 ≠ 0 || year % 400 = 0)

def daysIn (year month : Nat) : Nat :=
  if month = 2 then (if isLeapYear year then 29 else 28)
  else if month = 4 ∨ month = 6 ∨ month = 9 ∨ month = 11 then 30 else 31

def afterDate? (t : Text) : Option Text := do
  let (year, t) ← readPadded 4 0 9999 t
  let (month, t) ← (Text.after? t "-").bind (readPadded 2 1 12)
  let (_, t) ← (Text.after? t "-").bind (readPadded 2 1 (daysIn year month))
  some t

/-- What follows the fraction of a second, if there is one. -/
def afterFraction? (t : Text) : Option Text :=
  match t with
  | '.' :: rest => if (rest.takeWhile Char.isDigit).isEmpty then none else some (rest.dropWhile Char.isDigit)
  | _ => some t

def afterTime? (t : Text) : Option Text := do
  let (_, t) ← readPadded 2 0 23 t
  let (_, t) ← (Text.after? t ":").bind (readPadded 2 0 59)
  let (_, t) ← (Text.after? t ":").bind (readPadded 2 0 60)
  afterFraction? t

def afterOffset? (t : Text) : Option Text :=
  match t with
  | 'Z' :: rest | 'z' :: rest => some rest
  | '+' :: rest | '-' :: rest => do
    let (_, t) ← readPadded 2 0 23 rest
    let (_, t) ← (Text.after? t ":").bind (readPadded 2 0 59)
    some t
  | _ => some t

def afterMoment? (t : Text) : Option Text :=
  match afterDate? t with
  | none => afterTime? t
  | some rest =>
    match rest with
    | 'T' :: time | 't' :: time | ' ' :: time =>
      match readPadded 2 0 23 time with
      | none => some rest
      | some _ => (afterTime? time).bind afterOffset?
    | _ => some rest

end Toml

end SourceArchive
