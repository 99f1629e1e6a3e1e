import GalleryCatalog.Json.Value
import GalleryCatalog.Text.Digit

/-!
# Reading JSON

The grammar is strict: no comments, no trailing commas, no raw controls in texts,
no lone surrogates. Beyond it the numbers `NaN`, `Infinity` and `-Infinity` are
read. Values may be nested to a fixed depth, where empty arrays and objects count
for nothing, and the whole part of a number has a greatest length.
-/

set_option autoImplicit false

namespace GalleryCatalog.Json

def depthLimit : Nat := 200

def isMargin (c : Char) : Bool :=
  c == ' ' || c == '\t' || c == '\n' || c == '\r'

def skipMargin (cs : List Char) : List Char :=
  cs.dropWhile isMargin

/-- A number of exactly four hexadecimal digits, and the rest. -/
def readUnit : List Char → Option (Nat × List Char)
  | a :: b :: c :: d :: rest => do
    let a ← Text.hexValue? a
    let b ← Text.hexValue? b
    let c ← Text.hexValue? c
    let d ← Text.hexValue? d
    return (((a * 16 + b) * 16 + c) * 16 + d, rest)
  | _ => none

/-- A code point of one unit, or of a high and a low surrogate. -/
def readCodePoint (cs : List Char) : Option (Char × List Char) := do
  let (high, rest) ← readUnit cs
  if 0xD800 ≤ high ∧ high < 0xDC00 then
    match rest with
    | '\\' :: 'u' :: rest =>
      let (low, rest) ← readUnit rest
      if 0xDC00 ≤ low ∧ low < 0xE000 then
        return (Char.ofNat (0x10000 + (high - 0xD800) * 0x400 + (low - 0xDC00)), rest)
      else none
    | _ => none
  else if 0xDC00 ≤ high ∧ high < 0xE000 then none
  else return (Char.ofNat high, rest)

def readEscape : List Char → Option (Char × List Char)
  | '"' :: rest => some ('"', rest)
  | '\\' :: rest => some ('\\', rest)
  | '/' :: rest => some ('/', rest)
  | 'b' :: rest => some ('\x08', rest)
  | 'f' :: rest => some ('\x0c', rest)
  | 'n' :: rest => some ('\n', rest)
  | 'r' :: rest => some ('\r', rest)
  | 't' :: rest => some ('\t', rest)
  | 'u' :: rest => readCodePoint rest
  | _ => none

/-- The rest of a text up to its closing quote; `done` holds its start backwards. -/
def readText : Nat → List Char → List Char → Option (String × List Char)
  | 0, _, _ => none
  | _ + 1, done, '"' :: rest => some (String.ofList done.reverse, rest)
  | fuel + 1, done, '\\' :: rest => do
    let (c, rest) ← readEscape rest
    readText fuel (c :: done) rest
  | fuel + 1, done, c :: rest => if c.toNat < 0x20 then none else readText fuel (c :: done) rest
  | _ + 1, _, [] => none

def spanDigits (cs : List Char) : List Char × List Char :=
  (cs.takeWhile Text.isAsciiDigit, cs.dropWhile Text.isAsciiDigit)

/-- The digits after a point. There must be one if there is a point. -/
def readFraction : List Char → Option (Option (List Char) × List Char)
  | '.' :: rest =>
    let (ds, rest) := spanDigits rest
    if ds.isEmpty then none else some (some ds, rest)
  | cs => some (none, cs)

def readExponent : List Char → Option (Option Int × List Char)
  | [] => some (none, [])
  | e :: rest =>
    if e = 'e' ∨ e = 'E' then
      let (negative, rest) := match rest with
        | '-' :: rest => (true, rest)
        | '+' :: rest => (false, rest)
        | rest => (false, rest)
      let (ds, rest) := spanDigits rest
      if ds.isEmpty then none
      else
        let n : Int := Text.asciiNumber ds
        some (some (if negative then -n else n), rest)
    else some (none, e :: rest)

/-- The whole part of a number, which starts with a zero only if it is a zero. -/
def readWhole (cs : List Char) : Option (List Char × List Char) :=
  let (ds, rest) := spanDigits cs
  match ds with
  | [] => none
  | '0' :: _ :: _ => none
  | _ => if Text.digitLimit < ds.length then none else some (ds, rest)

def readUnsigned (negative : Bool) (cs : List Char) : Option (Value × List Char) := do
  let (whole, rest) ← readWhole cs
  let (fraction, rest) ← readFraction rest
  let (exponent, rest) ← readExponent rest
  if fraction.isNone ∧ exponent.isNone then
    let n : Int := Text.asciiNumber whole
    return (.integer (if negative then -n else n), rest)
  else
    let ds := whole ++ fraction.getD []
    let place := exponent.getD 0 - (fraction.getD []).length
    return (.real (Number.ofDecimal negative (Text.asciiNumber ds) ds.length place), rest)

def readNumber : List Char → Option (Value × List Char)
  | '-' :: 'I' :: 'n' :: 'f' :: 'i' :: 'n' :: 'i' :: 't' :: 'y' :: rest =>
    some (.real (.infinite true), rest)
  | '-' :: rest => readUnsigned true rest
  | cs => readUnsigned false cs

mutual

/-- `depth` counts the levels of nesting that are still allowed. -/
def readValue : Nat → Nat → List Char → Option (Value × List Char)
  | 0, _, _ => none
  | fuel + 1, depth, cs =>
    match cs with
    | '"' :: rest => (readText (rest.length + 1) [] rest).map fun r => (.text r.1, r.2)
    | '{' :: rest =>
      match skipMargin rest with
      | '}' :: rest => some (.object [], rest)
      | rest =>
        match depth with
        | 0 => none
        | depth + 1 => (readMembers fuel depth [] rest).map fun r => (.object r.1, r.2)
    | '[' :: rest =>
      match skipMargin rest with
      | ']' :: rest => some (.array [], rest)
      | rest =>
        match depth with
        | 0 => none
        | depth + 1 => (readItems fuel depth rest).map fun r => (.array r.1, r.2)
    | 't' :: 'r' :: 'u' :: 'e' :: rest => some (.flag true, rest)
    | 'f' :: 'a' :: 'l' :: 's' :: 'e' :: rest => some (.flag false, rest)
    | 'n' :: 'u' :: 'l' :: 'l' :: rest => some (.null, rest)
    | 'N' :: 'a' :: 'N' :: rest => some (.real .undefined, rest)
    | 'I' :: 'n' :: 'f' :: 'i' :: 'n' :: 'i' :: 't' :: 'y' :: rest =>
      some (.real (.infinite false), rest)
    | _ => readNumber cs

/-- At least one item, then the closing bracket. -/
def readItems : Nat → Nat → List Char → Option (List Value × List Char)
  | 0, _, _ => none
  | fuel + 1, depth, cs => do
    let (item, rest) ← readValue fuel depth cs
    match skipMargin rest with
    | ']' :: rest => return ([item], rest)
    | ',' :: rest =>
      let (items, rest) ← readItems fuel depth (skipMargin rest)
      return (item :: items, rest)
    | _ => none

/-- At least one member, then the closing brace. -/
def readMembers : Nat → Nat → Members → List Char → Option (Members × List Char)
  | 0, _, _, _ => none
  | fuel + 1, depth, ms, cs =>
    match cs with
    | '"' :: rest => do
      let (name, rest) ← readText (rest.length + 1) [] rest
      match skipMargin rest with
      | ':' :: rest =>
        let (v, rest) ← readValue fuel depth (skipMargin rest)
        match skipMargin rest with
        | '}' :: rest => return (put name v ms, rest)
        | ',' :: rest => readMembers fuel depth (put name v ms) (skipMargin rest)
        | _ => none
      | _ => none
    | _ => none

end

/-- One value with nothing but margins around it. -/
def read? (s : String) : Option Value := do
  let cs := skipMargin s.toList
  let (v, rest) ← readValue (2 * cs.length + 2) depthLimit cs
  if (skipMargin rest).isEmpty then some v else none

def ofBytes? (bytes : ByteArray) : Option Value := do
  read? (← String.fromUTF8? bytes)

end GalleryCatalog.Json
