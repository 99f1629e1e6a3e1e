/-!
# Binary numbers of 64 bits

A decimal number is read as the nearest number with a significand of 53 bits and
an exponent of at least -1074; of two nearest the one with the even significand.
Numbers beyond the largest are infinite. All arithmetic here is exact.
-/

set_option autoImplicit false

namespace GalleryCatalog.Number

/-- A finite number is `± significand * 2 ^ exponent`. -/
inductive Binary64 where
  | finite (negative : Bool) (significand : Nat) (exponent : Int)
  | infinite (negative : Bool)
  | undefined
  deriving DecidableEq, Repr

def twoTo (k : Nat) : Nat :=
  Nat.pow 2 k

def tenTo (k : Nat) : Nat :=
  Nat.pow 10 k

/-- Division with the remainder rounded to the nearest whole, a half to the even one. -/
def roundHalfEven (num den : Nat) : Nat :=
  let q := num / den
  let r := 2 * (num % den)
  if r < den then q
  else if den < r then q + 1
  else if q % 2 = 0 then q else q + 1

/-- The exponent of the last of 53 bits of a positive quotient, at least -1074. -/
def lastBit (num den : Nat) : Int :=
  let guess : Int := (Nat.log2 num : Int) - (Nat.log2 den : Int)
  let lead :=
    if guess ≥ 0 then
      if num < den * twoTo guess.toNat then guess - 1 else guess
    else
      if num * twoTo (-guess).toNat < den then guess - 1 else guess
  max (lead - 52) (-1074)

/-- The number nearest to a quotient. -/
def nearest (negative : Bool) (num den : Nat) : Binary64 :=
  if num = 0 then .finite negative 0 0
  else
    let e := lastBit num den
    let m := if e ≥ 0 then roundHalfEven num (den * twoTo e.toNat)
      else roundHalfEven (num * twoTo (-e).toNat) den
    if e > 971 ∨ (e = 971 ∧ twoTo 53 ≤ m) then .infinite negative
    else if m = twoTo 53 then .finite negative (twoTo 52) (e + 1)
    else .finite negative m e

/-- The number nearest to `digits * 10 ^ exponent`, where `places` bounds the
number of digits. Far exponents need no arithmetic. -/
def ofDecimal (negative : Bool) (digits places : Nat) (exponent : Int) : Binary64 :=
  if digits = 0 then .finite negative 0 0
  else if exponent > 400 then .infinite negative
  else if exponent + places < -400 then .finite negative 0 0
  else if exponent ≥ 0 then nearest negative (digits * tenTo exponent.toNat) 1
  else nearest negative digits (tenTo (-exponent).toNat)

/-- The whole number that a finite number equals, if it is one. -/
def Binary64.integer? : Binary64 → Option Int
  | .finite negative m e =>
    let sign : Int := if negative then -1 else 1
    if e ≥ 0 then some (sign * (m * twoTo e.toNat : Nat))
    else if m % twoTo (-e).toNat = 0 then some (sign * (m / twoTo (-e).toNat : Nat))
    else none
  | _ => none

def Binary64.isFinite : Binary64 → Bool
  | .finite .. => true
  | _ => false

end GalleryCatalog.Number
