import SourceArchive.Data.Toml.Draft
import SourceArchive.Data.Toml.Moment
import SourceArchive.Data.Toml.Number
import SourceArchive.Data.Toml.Quoted

/-!
# Reading TOML

A document is a sequence of comments, headers and keys with values.  Lists and inline tables nest to a limited
depth, and dotted keys have a limited number of parts.
-/

namespace SourceArchive

namespace Toml

/-- How deep values nest, and how many parts a key may have. -/
def depthLimit : Nat := 79

def inBareKey (c : Char) : Bool := c.isAlphanum || c == '_' || c == '-'

def readPart (t : Text) : Option (Text × Text) :=
  match t with
  | '"' :: _ | '\'' :: _ => readShort t
  | _ =>
    let part := t.takeWhile inBareKey
    if part.isEmpty then none else some (part, t.drop part.length)

/-- The parts of a key, at most `count`, and what follows it and the blanks behind it. -/
def readParts (count : Nat) (t : Text) : Option (List Text × Text) :=
  match count with
  | 0 => none
  | count + 1 =>
    match readPart (skipBlanks t) with
    | none => none
    | some (part, rest) =>
      match skipBlanks rest with
      | '.' :: rest => (readParts count rest).map fun (parts, rest) => (part :: parts, rest)
      | rest => some ([part], rest)

/-- A key: the parts of its path, its last part, and what follows. -/
def readKey (t : Text) : Option (List Text × Text × Text) := do
  let (parts, rest) ← readParts depthLimit t
  let last ← parts.getLast?
  some (parts.dropLast, last, rest)

def readField (value : Text → Option (Value × Text)) (t : Text) :
    Option (List Text × Text × Value × Text) := do
  let (path, key, rest) ← readKey t
  let rest ← Text.after? rest "="
  let (v, rest) ← value (skipBlanks rest)
  some (path, key, v, rest)

/-- The items of a list up to its closing bracket.  `fuel` bounds the number of steps. -/
def readItems (value : Text → Option (Value × Text)) (fuel : Nat) (t : Text) : Option (List Value × Text) :=
  match fuel with
  | 0 => none
  | fuel + 1 =>
    match skipLines t with
    | ']' :: rest => some ([], rest)
    | t =>
      match value t with
      | none => none
      | some (v, rest) =>
        match skipLines rest with
        | ',' :: rest => (readItems value fuel rest).map fun (vs, rest) => (v :: vs, rest)
        | ']' :: rest => some ([v], rest)
        | _ => none

/-- The fields of an inline table up to its closing bracket, added to `fields`.  `fuel` bounds the number of
steps. -/
def readInline (value : Text → Option (Value × Text)) (fuel : Nat) (fields : Fields) (t : Text) :
    Option (Fields × Text) :=
  match fuel with
  | 0 => none
  | fuel + 1 =>
    match readField value t with
    | none => none
    | some (path, key, v, rest) =>
      match fields.add path key v, skipBlanks rest with
      | some fields, ',' :: rest => readInline value fuel fields rest
      | some fields, '}' :: rest => some (fields, rest)
      | _, _ => none

def readScalar (t : Text) : Option (Value × Text) :=
  match readQuoted t with
  | some (s, rest) => some (.text s, rest)
  | none =>
    match Text.after? t "true", Text.after? t "false", afterMoment? t with
    | some rest, _, _ => some (.bool true, rest)
    | _, some rest, _ => some (.bool false, rest)
    | _, _, some rest => some (.moment, rest)
    | _, _, _ => readNumber t

/-- A value whose lists and inline tables nest at most to a depth. -/
def readValue (depth : Nat) (t : Text) : Option (Value × Text) :=
  match depth, t with
  | depth + 1, '[' :: rest =>
    (readItems (readValue depth) (rest.length + 1) rest).map fun (vs, rest) => (.list vs, rest)
  | depth + 1, '{' :: rest =>
    match skipBlanks rest with
    | '}' :: rest => some (.table [], rest)
    | rest =>
      (readInline (readValue depth) (rest.length + 1) [] rest).map fun (fields, rest) =>
        (.table (fieldValues fields), rest)
  | _, t => readScalar t

/-- Reads one line, or the lines of one value, of a document: the document after it and what follows. -/
def readEntry (d : Draft) (t : Text) : Option (Draft × Text) :=
  match t with
  | '#' :: _ | '\n' :: _ | '\r' :: _ => (restOfLine? t).map (d, ·)
  | '[' :: '[' :: rest => do
    let (path, key, rest) ← readKey rest
    let rest ← (Text.after? rest "]]").bind restOfLine?
    (d.openItem path key).map (·, rest)
  | '[' :: rest => do
    let (path, key, rest) ← readKey rest
    let rest ← (Text.after? rest "]").bind restOfLine?
    (d.openTable path key).map (·, rest)
  | _ => do
    let (path, key, v, rest) ← readField (readValue depthLimit) t
    let rest ← restOfLine? rest
    (d.add path key v).map (·, rest)

def readEntries (fuel : Nat) (d : Draft) (t : Text) : Option Draft :=
  match fuel with
  | 0 => none
  | fuel + 1 =>
    match skipBlanks t with
    | [] => some d
    | t =>
      match readEntry d t with
      | none => none
      | some (d, rest) => readEntries fuel d rest

def skipByteOrderMark (t : Text) : Text := (Text.after? t ['\ufeff']).getD t

def read (t : Text) : Option Value := (readEntries (t.length + 1) {} (skipByteOrderMark t)).map (·.toValue)

end Toml

end SourceArchive
