import GalleryCatalog.Text.Integer

/-!
# Real numbers in arguments

A real number may have white space around it and a sign. It is written with decimal
digits of any script, a point, an exponent and single underscores between digits, or it
is infinite or no number.
-/

set_option autoImplicit false

namespace GalleryCatalog.Text

/-- Drop underscores, each of which must stand between digits. -/
def withoutUnderscores? : List Char → Option (List Char)
  | [] => some []
  | a :: '_' :: b :: cs =>
    if (decimalValue a).isSome ∧ (decimalValue b).isSome then
      (withoutUnderscores? (b :: cs)).map (a :: ·)
    else none
  | c :: cs => if c = '_' then none else (withoutUnderscores? cs).map (c :: ·)

def spanDecimals (cs : List Char) : List Char × List Char :=
  (cs.takeWhile fun c => (decimalValue c).isSome, cs.dropWhile fun c => (decimalValue c).isSome)

def withoutSign : List Char → List Char
  | '-' :: cs => cs
  | '+' :: cs => cs
  | cs => cs

/-- Nothing, or an exponent and nothing more. -/
def isExponent : List Char → Bool
  | [] => true
  | e :: cs => (e = 'e' || e = 'E') && cs ≠ [] && decimals (withoutSign cs)
where
  decimals (cs : List Char) : Bool := cs ≠ [] && cs.all fun c => (decimalValue c).isSome

/-- Digits with a point among or beside them, then perhaps an exponent. -/
def isUnsignedReal (cs : List Char) : Bool :=
  let (whole, rest) := spanDecimals cs
  match rest with
  | '.' :: rest =>
    let (part, rest) := spanDecimals rest
    (whole ≠ [] || part ≠ []) && isExponent rest
  | rest => whole ≠ [] && isExponent rest

def realWords : List String := ["inf", "infinity", "nan"]

def isReal (s : String) : Bool :=
  match withoutUnderscores? (trimEnds isSpace s.toList) with
  | none => false
  | some cs =>
    let cs := withoutSign cs
    isUnsignedReal cs || realWords.contains (String.ofList (cs.map Char.toLower))

end GalleryCatalog.Text
