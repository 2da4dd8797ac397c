import SourceArchive.Number.Digits
import SourceArchive.Pattern.Build
import SourceArchive.Pattern.Fault

/-!
# Escapes of written patterns

What a backslash and the characters after it stand for: a character, a class or an assertion.
-/

namespace SourceArchive

inductive Escape where
  | char (c : Char)
  | class (c : CharClass)
  | assertion (a : Assertion)
deriving Repr, DecidableEq

namespace Escape

/-- A code point in hexadecimal: exactly `width` digits, or any number of them in braces. -/
def readHex (width : Nat) (t : Text) : Except PatternFault (Char × Text) :=
  let written := match t with
    | '{' :: r => Text.cutAt? '}' r
    | _ => if width ≤ t.length then some (t.take width, t.drop width) else none
  match written with
  | none => .error .unknownEscape
  | some (digits, rest) =>
    match if digits.isEmpty then none else (valueIn? 16 digits).bind charOf? with
    | some c => .ok (c, rest)
    | none => .error .unknownEscape

/-- Whether a backslash before a character gives the character itself: punctuation but for angle brackets. -/
def isEscapable (c : Char) : Bool :=
  c.toNat < 128 && !c.isAlphanum && c != '<' && c != '>'

/-- Reads what follows a backslash. -/
def read (t : Text) : Except PatternFault (Escape × Text) :=
  match t with
  | [] => .error .unfinishedEscape
  | c :: r =>
    match c with
    | 'd' => .ok (.class .digit, r)
    | 'D' => .ok (.class (.compl .digit), r)
    | 's' => .ok (.class .blank, r)
    | 'S' => .ok (.class (.compl .blank), r)
    | 'w' => .ok (.class .word, r)
    | 'W' => .ok (.class (.compl .word), r)
    | 'A' => .ok (.assertion .textStart, r)
    | 'z' => .ok (.assertion .textEnd, r)
    | 'b' => .ok (.assertion .wordEdge, r)
    | 'B' => .ok (.assertion .noWordEdge, r)
    | 'a' => .ok (.char '\x07', r)
    | 'f' => .ok (.char '\x0c', r)
    | 't' => .ok (.char '\t', r)
    | 'n' => .ok (.char '\n', r)
    | 'r' => .ok (.char '\r', r)
    | 'v' => .ok (.char '\x0b', r)
    | 'x' => (readHex 2 r).map fun (c, rest) => (.char c, rest)
    | 'u' => (readHex 4 r).map fun (c, rest) => (.char c, rest)
    | 'U' => (readHex 8 r).map fun (c, rest) => (.char c, rest)
    | _ => if isEscapable c then .ok (.char c, r) else .error .unknownEscape

end Escape

end SourceArchive
