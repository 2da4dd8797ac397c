import SourceArchive.Text.Basic

/-!
# Where brackets close

Two scans find the end of a bracketed text.  Round, square and curly brackets are counted together, and quoted
strings are stepped over; angle brackets are counted on their own, and an arrow closes none.  Both answer with the
number of characters up to and including the closing bracket.
-/

namespace SourceArchive

namespace Delimiter

def opens (c : Char) : Bool := c == '(' || c == '[' || c == '{'

def closes (c : Char) : Bool := c == ')' || c == ']' || c == '}'

def quotes (c : Char) : Bool := c == '\'' || c == '"' || c == '\x60'

/-- The length of the text up to the bracket that closes the outermost of `depth` open ones.  Inside a string,
`quote` is its quotation mark, and a backslash hides the next character. -/
def closingFrom (depth : Nat) (quote : Option Char) : Text → Option Nat
  | [] => none
  | c :: r =>
    match quote with
    | some q =>
      if c = '\\' then
        match r with
        | [] => none
        | _ :: r => (closingFrom depth (some q) r).map (· + 2)
      else (closingFrom depth (if c = q then none else some q) r).map (· + 1)
    | none =>
      if quotes c then (closingFrom depth (some c) r).map (· + 1)
      else if opens c then (closingFrom (depth + 1) none r).map (· + 1)
      else if closes c then
        if depth ≤ 1 then some 1 else (closingFrom (depth - 1) none r).map (· + 1)
      else (closingFrom depth none r).map (· + 1)

def balancedLength? (t : Text) : Option Nat := closingFrom 0 none t

/-- The length of the text up to the angle bracket that closes the outermost of `depth` open ones; `previous` is
the character before the text. -/
def angleClosingFrom (depth : Nat) (previous : Option Char) : Text → Option Nat
  | [] => none
  | c :: r =>
    if c = '<' then (angleClosingFrom (depth + 1) (some c) r).map (· + 1)
    else if c = '>' ∧ previous ≠ some '=' then
      if depth ≤ 1 then some 1 else (angleClosingFrom (depth - 1) (some c) r).map (· + 1)
    else (angleClosingFrom depth (some c) r).map (· + 1)

def genericLength? (t : Text) : Option Nat := angleClosingFrom 0 none t

/-- What stands between the first and the last of the first `n` characters. -/
def inner (t : Text) (n : Nat) : Text := (t.take (n - 1)).drop 1

end Delimiter

end SourceArchive
