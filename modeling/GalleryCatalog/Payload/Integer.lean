import GalleryCatalog.Json.Value
import GalleryCatalog.Payload.Violation
import GalleryCatalog.Text.Blank
import GalleryCatalog.Text.Digit

/-!
# Whole numbers in a document

A whole number may be written as one, as a flag, as a number without fraction that
fits 64 bits, or as text. Text holds a number as a document writes it, or one with
white space around it, a sign, leading zeros, single underscores between digits and a
fraction of zeros. Only the first kind of text is called too large when it is.
-/

set_option autoImplicit false

namespace GalleryCatalog.Payload

/-- A character at which a number may begin after its leading zeros. -/
def isOpening (c : Char) : Bool :=
  ('1' ≤ c && c ≤ '9') || c == '-'

/-- Drop zeros and underscores after a leading zero, up to the first other digit or a
sign. The character before a point or before the end stays; it is `last`, the one
dropped last. -/
def dropZeros (last : Char) : List Char → Option (List Char)
  | [] => some [last]
  | c :: cs =>
    if c = '0' ∨ c = '_' then dropZeros c cs
    else if isOpening c then some (c :: cs)
    else if c = '.' then some (last :: c :: cs)
    else none

def withoutLeadingZeros : List Char → Option (List Char)
  | '0' :: cs => dropZeros '0' cs
  | c :: cs => if isOpening c then some (c :: cs) else none
  | [] => none

/-- A minus sign stays before the digits whose leading zeros are dropped. -/
def withoutSignedZeros : List Char → Option (List Char)
  | '-' :: cs => (withoutLeadingZeros cs).map ('-' :: ·)
  | cs => withoutLeadingZeros cs

/-- Drop a fraction of at least one zero and nothing else. -/
def withoutZeroFraction (cs : List Char) : List Char :=
  match cs.dropWhile (· != '.') with
  | _ :: d :: ds => if (d :: ds).all (· == '0') then cs.takeWhile (· != '.') else cs
  | _ => cs

def hasDoubleUnderscore : List Char → Bool
  | '_' :: '_' :: _ => true
  | _ :: cs => hasDoubleUnderscore cs
  | [] => false

/-- Drop underscores if each stands alone between other characters. -/
def withoutUnderscores (cs : List Char) : List Char :=
  if cs.head? = some '_' ∨ cs.getLast? = some '_' ∨ hasDoubleUnderscore cs then cs
  else cs.filter (· != '_')

def withoutPlus : List Char → Option (List Char)
  | '+' :: '-' :: _ => none
  | '+' :: cs => some cs
  | cs => some cs

def cleanNumber (cs : List Char) : Option (List Char) := do
  let cs ← withoutPlus (Text.trimEnds Text.isSpace cs)
  let cs ← withoutSignedZeros cs
  return withoutUnderscores (withoutZeroFraction cs)

/-- A sign and digits without a leading zero, of limited length. -/
def plainInteger (cs : List Char) : Except Fault Int :=
  let (negative, ds) := match cs with
    | '-' :: ds => (true, ds)
    | ds => (false, ds)
  match ds with
  | ['0'] => .ok 0
  | d :: _ =>
    let run := ds.takeWhile Text.isAsciiDigit
    if ¬ ('1' ≤ d ∧ d ≤ '9') then .error .notWholeText
    else if Text.digitLimit < run.length then .error .tooLarge
    else if run.length ≠ ds.length then .error .notWholeText
    else
      let n : Int := Text.asciiNumber ds
      .ok (if negative then -n else n)
  | [] => .error .notWholeText

/-- Text is read as it stands if it can be, and cleaned otherwise. A number that is too
large as it stands is not cleaned. -/
def integerOfText (s : String) : Except Fault Int :=
  match plainInteger s.toList with
  | .error .notWholeText =>
    match (cleanNumber s.toList).map plainInteger with
    | some (.ok n) => .ok n
    | _ => .error .notWholeText
  | r => r

def integerOfReal (x : Number.Binary64) : Except Fault Int :=
  if ¬ x.isFinite then .error .notFinite
  else match x.integer? with
    | none => .error .fractional
    | some n => if n.natAbs < 0x8000000000000000 then .ok n else .error .tooLarge

def integerOf : Json.Value → Except Fault Int
  | .integer n => .ok n
  | .flag b => .ok (if b then 1 else 0)
  | .real x => integerOfReal x
  | .text s => integerOfText s
  | _ => .error .notNumber

end GalleryCatalog.Payload
