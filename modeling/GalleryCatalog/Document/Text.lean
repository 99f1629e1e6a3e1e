import GalleryCatalog.Calendar.Written
import GalleryCatalog.Document.Value
import GalleryCatalog.Number.Shortest
import GalleryCatalog.Text.Quoted

/-!
# Values as text

A value is written as plain text, and within an array or a table so that its kind
can be seen: texts are quoted, and dates and times name their parts.
-/

set_option autoImplicit false

namespace GalleryCatalog.Document

open Calendar (Date TimeOfDay Moment)

def flagText (b : Bool) : String :=
  if b then "True" else "False"

def arguments (ns : List Int) : String :=
  ", ".intercalate (ns.map toString)

/-- Numbers of a time of day, without zeros at the end after the minute. -/
def clockParts (t : TimeOfDay) : List Int :=
  if t.micro ≠ 0 then [t.hour, t.minute, t.second, t.micro]
  else if t.second ≠ 0 then [t.hour, t.minute, t.second]
  else [t.hour, t.minute]

def dateParts (d : Date) : List Int :=
  [d.year, d.month, d.day]

def offsetDisplay (offset : Int) : String :=
  if offset = 0 then "datetime.timezone.utc"
  else "datetime.timezone(" ++ Calendar.spanText offset ++ ")"

def dateDisplay (d : Date) : String :=
  "datetime.date(" ++ arguments (dateParts d) ++ ")"

def clockDisplay (t : TimeOfDay) : String :=
  "datetime.time(" ++ arguments (clockParts t) ++ ")"

def momentDisplay (m : Moment) : String :=
  "datetime.datetime(" ++ arguments (dateParts m.date ++ clockParts m.time) ++
    (match m.offset with
      | some offset => ", tzinfo=" ++ offsetDisplay offset
      | none => "") ++ ")"

mutual

/-- A value as it is written within another one. -/
def Value.display : Value → String
  | .text s => Text.quote s
  | .integer n => toString n
  | .real x => x.text
  | .flag b => flagText b
  | .moment m => momentDisplay m
  | .date d => dateDisplay d
  | .clock t => clockDisplay t
  | .array items => "[" ++ ", ".intercalate (displayItems items) ++ "]"
  | .table es => "\x7b" ++ ", ".intercalate (displayEntries es) ++ "\x7d"
  | .missing => "None"

def displayItems : List Value → List String
  | [] => []
  | v :: vs => v.display :: displayItems vs

def displayEntries : List (String × Value) → List String
  | [] => []
  | (name, v) :: es => (Text.quote name ++ ": " ++ v.display) :: displayEntries es

end

mutual

/-- Whether a value holds a number with too many digits to be written. -/
def Value.isTooLong : Value → Bool
  | .integer n => Number.tenTo Text.digitLimit ≤ n.natAbs
  | .array items => someItemTooLong items
  | .table es => someEntryTooLong es
  | _ => false

def someItemTooLong : List Value → Bool
  | [] => false
  | v :: vs => v.isTooLong || someItemTooLong vs

def someEntryTooLong : List (String × Value) → Bool
  | [] => false
  | (_, v) :: es => v.isTooLong || someEntryTooLong es

end

/-- A value on its own. -/
def Value.plain : Value → String
  | .text s => s
  | .moment m => m.text ' '
  | .date d => String.ofList d.text
  | .clock t => String.ofList t.text
  | v => v.display

/-- The name of the kind of a value. -/
def Value.kind : Value → String
  | .text _ => "str"
  | .integer _ => "int"
  | .real _ => "float"
  | .flag _ => "bool"
  | .moment _ => "datetime.datetime"
  | .date _ => "datetime.date"
  | .clock _ => "datetime.time"
  | .array _ => "list"
  | .table _ => "dict"
  | .missing => "NoneType"

end GalleryCatalog.Document
