import GalleryCatalog.Text.Blank
import GalleryCatalog.Text.Digit
import GalleryCatalog.Text.Quoted

/-!
# Whole numbers in arguments

A whole number may have white space around it, one sign, decimal digits of any script
and single underscores between digits.
-/

set_option autoImplicit false

namespace GalleryCatalog.Text

/-- Digit values, with an underscore allowed between two digits. -/
def groupedDigits : List Char → Option (List Nat)
  | [] => none
  | [c] => (decimalValue c).map fun d => [d]
  | c :: '_' :: cs => do
    let d ← decimalValue c
    let ds ← groupedDigits cs
    return d :: ds
  | c :: cs => do
    let d ← decimalValue c
    let ds ← groupedDigits cs
    return d :: ds

inductive IntegerFault where
  | malformed
  | tooLong (count : Nat)
  deriving DecidableEq, Repr

/-- The wording for a number that cannot be read from a text. -/
def IntegerFault.message (text : String) : IntegerFault → String
  | .malformed =>
    "invalid literal for int() with base 10: " ++ String.ofList ((quote text).toList.take 200)
  | .tooLong count => digitLimitMessage count

/-- Too many digits are refused before anything behind them is looked at. -/
def readUnsigned (cs : List Char) : Except IntegerFault Nat :=
  let run := cs.takeWhile fun c => (decimalValue c).isSome || c == '_'
  match groupedDigits run with
  | none => .error .malformed
  | some ds =>
    if digitLimit < ds.length then .error (.tooLong ds.length)
    else if run.length < cs.length then .error .malformed
    else .ok (ds.foldl (fun n d => n * 10 + d) 0)

def readInteger (s : String) : Except IntegerFault Int :=
  match trimEnds isSpace s.toList with
  | '-' :: cs => (readUnsigned cs).map fun n => -(n : Int)
  | '+' :: cs => (readUnsigned cs).map Int.ofNat
  | cs => (readUnsigned cs).map Int.ofNat

def integer? (s : String) : Option Int :=
  (readInteger s).toOption

end GalleryCatalog.Text
