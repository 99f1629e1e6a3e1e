import GalleryCatalog.Calendar.Moment
import GalleryCatalog.Number.Binary64

/-!
# Values of a configuration document

A document is a table: named entries in the order in which they were written. A
name that stands without a value is `missing`.
-/

set_option autoImplicit false

namespace GalleryCatalog.Document

inductive Value where
  | text (s : String)
  | integer (n : Int)
  | real (x : Number.Binary64)
  | flag (b : Bool)
  | moment (m : Calendar.Moment)
  | date (d : Calendar.Date)
  | clock (t : Calendar.TimeOfDay)
  | array (items : List Value)
  | table (entries : List (String × Value))
  | missing
  deriving Repr

abbrev Entries := List (String × Value)

/-- Replace the value of an entry that is there, or add the entry at the end. -/
def put (name : String) (v : Value) : Entries → Entries
  | [] => [(name, v)]
  | e :: es => if e.1 = name then (name, v) :: es else e :: put name v es

/-- Arrays and tables hold further values. -/
def Value.isNested : Value → Bool
  | .array _ => true
  | .table _ => true
  | _ => false

end GalleryCatalog.Document
