import GalleryCatalog.Number.Binary64

/-!
# Shortest decimal text

A binary number is written with the fewest decimal digits that read back as the
same number; of two such decimals the nearer is written, and of two equally near
the even one. From `1e16` on and below
`1e-4` the text has an exponent.
-/

set_option autoImplicit false

namespace GalleryCatalog.Number

/-- `digits * 10 ^ exponent`. -/
structure Decimal where
  digits : Nat
  exponent : Int
  deriving DecidableEq, Repr

def digitCount (n : Nat) : Nat :=
  (Nat.toDigits 10 n).length

/-- A positive finite number as a quotient. -/
def quotient (m : Nat) (e : Int) : Nat × Nat :=
  if e ≥ 0 then (m * twoTo e.toNat, 1) else (m, twoTo (-e).toNat)

/-- The two points of the grid of multiples of `10 ^ e` around a quotient. -/
def neighbours (num den : Nat) (e : Int) : List Decimal :=
  let q := if e ≥ 0 then num / (den * tenTo e.toNat) else num * tenTo (-e).toNat / den
  [⟨q, e⟩, ⟨q + 1, e⟩]

/-- How far a decimal lies from a quotient, in units of `10 ^ exponent / den`. -/
def distance (num den : Nat) (d : Decimal) : Nat :=
  let (x, y) := if d.exponent ≥ 0 then (num, d.digits * tenTo d.exponent.toNat * den)
    else (num * tenTo (-d.exponent).toNat, d.digits * den)
  (x - y) + (y - x)

def readsBack (m : Nat) (e : Int) (d : Decimal) : Bool :=
  ofDecimal false d.digits (digitCount d.digits) d.exponent == nearest false (quotient m e).1 (quotient m e).2

/-- The exponent of the first decimal digit of a positive quotient. -/
def leadingPlace (num den : Nat) : Int :=
  if den ≤ num then (digitCount (num / den) : Int) - 1
  else
    let k := digitCount (den / num)
    if num * tenTo (k - 1) < den then -(k : Int) else -((k - 1 : Nat) : Int)

/-- The first grid, from coarse to fine, with a point that reads back. -/
def shortestFrom (m : Nat) (e lead : Int) (places : Nat) : Nat → Decimal
  | 0 => ⟨0, 0⟩
  | more + 1 =>
    let (num, den) := quotient m e
    match (neighbours num den (lead - places)).filter (readsBack m e) with
    | [] => shortestFrom m e lead (places + 1) more
    | [d] => d
    | d :: d' :: _ =>
      if distance num den d < distance num den d' then d
      else if distance num den d' < distance num den d then d'
      else if d.digits % 2 = 0 then d else d'

def shortest (m : Nat) (e : Int) : Decimal :=
  let (num, den) := quotient m e
  shortestFrom m e (leadingPlace num den) 0 18

/-- Digits without trailing zeros and the place of the point before them. -/
def Decimal.normal (d : Decimal) : List Char × Int :=
  let ds := Nat.toDigits 10 d.digits
  ((ds.reverse.dropWhile (· == '0')).reverse, d.exponent + ds.length)

def exponentText (e : Int) : List Char :=
  let ds := Nat.toDigits 10 e.natAbs
  'e' :: (if e < 0 then '-' else '+') :: (if ds.length < 2 then '0' :: ds else ds)

def positional (ds : List Char) (point : Int) : List Char :=
  if point ≤ 0 then '0' :: '.' :: List.replicate (-point).toNat '0' ++ ds
  else if (ds.length : Int) ≤ point then
    ds ++ List.replicate (point.toNat - ds.length) '0' ++ ['.', '0']
  else ds.take point.toNat ++ '.' :: ds.drop point.toNat

def scientific (ds : List Char) (point : Int) : List Char :=
  ds.take 1 ++ (if ds.length > 1 then '.' :: ds.drop 1 else []) ++ exponentText (point - 1)

def Binary64.text : Binary64 → String
  | .undefined => "nan"
  | .infinite negative => if negative then "-inf" else "inf"
  | .finite negative m e =>
    let body :=
      if m = 0 then ['0', '.', '0']
      else
        let (ds, point) := (shortest m e).normal
        if -4 < point ∧ point ≤ 16 then positional ds point else scientific ds point
    String.ofList (if negative then '-' :: body else body)

end GalleryCatalog.Number
