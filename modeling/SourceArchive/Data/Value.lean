import SourceArchive.Number.Binary64
import SourceArchive.Number.Width
import SourceArchive.Text.Basic

/-!
# Data values

The values that structured data is made of, whatever notation it is written in.
-/

namespace SourceArchive

inductive Value where
  | null
  | bool (b : Bool)
  | int (n : Int)
  | real (x : Binary64)
  | text (t : Text)
  /-- A date, a time or both. -/
  | moment
  | list (items : List Value)
  | table (fields : List (Text × Value))
deriving Repr

namespace Value

/-- A number of 64 bits without a sign. -/
def nat? : Value → Option Nat
  | int n => if fitsUnsigned n then some n.toNat else none
  | _ => none

def real? : Value → Option Binary64
  | int n => some (.ofInt n)
  | real x => some x
  | _ => none

def text? : Value → Option Text
  | text t => some t
  | _ => none

def list? : Value → Option (List Value)
  | list items => some items
  | _ => none

def texts? (v : Value) : Option (List Text) := v.list?.bind (·.mapM text?)

def table? : Value → Option (List (Text × Value))
  | table fields => some fields
  | _ => none

/-- The last field with a key. -/
def get? (v : Value) (key : Text) : Option Value := v.table?.bind fun fields => fields.reverse.lookup key

/-- The fields of a record with the given keys: those of a table, or the items of a list in the order of the
keys.  A moment has no such fields. -/
def record? (keys : List Text) : Value → Option (List (Text × Value))
  | table fields => some fields.reverse
  | list items => if items.length ≤ keys.length then some (keys.zip items) else none
  | moment => some []
  | _ => none

def ofTexts (ts : List Text) : Value := list (ts.map text)

def ofNat (n : Nat) : Value := int n

end Value

end SourceArchive
