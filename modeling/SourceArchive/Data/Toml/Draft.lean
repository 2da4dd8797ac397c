import SourceArchive.Data.Value

/-!
# Tables under construction

While a document is read, a table remembers how it came about, because that decides what may still be added to
it.  A table is opened by its header, comes about on the way to another header, or by a dotted key.  A value is
never changed, a header never opens a table twice, and a dotted key never adds to a table that has a header.
-/

namespace SourceArchive

namespace Toml

/-- How a table came about. -/
inductive Origin where
  /-- By its own header. -/
  | header
  /-- On the way to the header of a table within. -/
  | path
  /-- By a dotted key. -/
  | dotted
deriving Repr, DecidableEq

/-- What a key stands for while a document is read. -/
inductive Node where
  | value (v : Value)
  | table (origin : Origin) (fields : List (Text × Node))
  /-- The tables of a list; headers within refer to the last. -/
  | tables (items : List (List (Text × Node)))

abbrev Fields := List (Text × Node)

mutual

def Node.toValue : Node → Value
  | .value v => v
  | .table _ fields => .table (fieldValues fields)
  | .tables items => .list (itemValues items)

def fieldValues : Fields → List (Text × Value)
  | [] => []
  | (key, node) :: rest => (key, node.toValue) :: fieldValues rest

def itemValues : List Fields → List Value
  | [] => []
  | fields :: rest => .table (fieldValues fields) :: itemValues rest

end

namespace Fields

/-- Sets what a key stands for; a new key goes to the end. -/
def set (key : Text) (node : Node) : Fields → Fields
  | [] => [(key, node)]
  | (k, n) :: rest => if k = key then (key, node) :: rest else (k, n) :: set key node rest

/-- Changes the fields that a path leads to; `dotted` says whether the path is part of a dotted key.  Tables that
are missing come about on the way. -/
def changeAt (dotted : Bool) (change : Origin → Fields → Option Fields) :
    List Text → Origin → Fields → Option Fields
  | [], origin, fields => change origin fields
  | key :: path, _, fields => do
    let node ← match fields.lookup key with
      | none =>
        let origin := if dotted then Origin.dotted else .path
        (changeAt dotted change path origin []).map (Node.table origin)
      | some (.value _) => none
      | some (.table origin inner) =>
        if dotted ∧ origin = .header then none
        else (changeAt dotted change path origin inner).map (Node.table origin)
      | some (.tables items) =>
        match items.getLast? with
        | none => none
        | some last =>
          (changeAt dotted change path .header last).map fun inner => Node.tables (items.dropLast ++ [inner])
    some (set key node fields)

/-- Adds a value under a dotted key, which must be new.  Only tables that dotted keys brought about take further
dotted keys. -/
def add (path : List Text) (key : Text) (v : Value) (fields : Fields) : Option Fields :=
  changeAt true
    (fun origin fields =>
      if (origin = .dotted ↔ path.isEmpty) ∨ (fields.lookup key).isSome then none
      else some (fields ++ [(key, .value v)]))
    path .header fields

/-- Opens the table of a header, which must be new or have come about on the way to another header. -/
def openTable (path : List Text) (key : Text) (fields : Fields) : Option Fields :=
  changeAt false
    (fun _ fields =>
      match fields.lookup key with
      | none => some (fields ++ [(key, .table .header [])])
      | some (.table .path inner) => some (set key (.table .header inner) fields)
      | some _ => none)
    path .header fields

/-- Adds a table to the list of a header, which must be new or a list of tables. -/
def openItem (path : List Text) (key : Text) (fields : Fields) : Option Fields :=
  changeAt false
    (fun _ fields =>
      match fields.lookup key with
      | none => some (fields ++ [(key, .tables [[]])])
      | some (.tables items) => some (set key (.tables (items ++ [[]])) fields)
      | some _ => none)
    path .header fields

end Fields

/-- A document under construction: its fields and the header under which keys are added. -/
structure Draft where
  fields : Fields := []
  header : List Text := []

namespace Draft

def add (d : Draft) (path : List Text) (key : Text) (v : Value) : Option Draft := do
  let fields ← Fields.changeAt false (fun _ inner => Fields.add path key v inner) d.header .header d.fields
  some { d with fields }

def openTable (d : Draft) (path : List Text) (key : Text) : Option Draft := do
  let fields ← Fields.openTable path key d.fields
  some { fields, header := path ++ [key] }

def openItem (d : Draft) (path : List Text) (key : Text) : Option Draft := do
  let fields ← Fields.openItem path key d.fields
  some { fields, header := path ++ [key] }

def toValue (d : Draft) : Value := .table (fieldValues d.fields)

end Draft

end Toml

end SourceArchive
