import GalleryCatalog.Document.Value

/-!
# Lexemes of a configuration file

Keys, texts, numbers, dates and times. A reader takes what it can from the start
of the characters and hands back the rest.
-/

set_option autoImplicit false

namespace GalleryCatalog.Toml

/-- Why a file cannot be read. A whole number may have too many digits although the
file is well formed. -/
inductive Fault where
  | malformed
  | tooManyDigits (count : Nat)
  deriving DecidableEq, Repr

abbrev Read (α : Type) := List Char → Except Fault (α × List Char)

abbrev Key := List String

def isMargin (c : Char) : Bool :=
  c == ' ' || c == '\t'

def isMarginOrLine (c : Char) : Bool :=
  isMargin c || c == '\n'

def skipMargin (cs : List Char) : List Char :=
  cs.dropWhile isMargin

/-- Controls other than the tab may stand nowhere; line ends only in texts of many lines. -/
def isForbidden (c : Char) : Bool :=
  (c.toNat < 0x20 && c != '\t') || c.toNat == 0x7F

def isForbiddenInLines (c : Char) : Bool :=
  isForbidden c && c != '\n'

/-- Drop a comment up to the end of its line. -/
def skipComment : List Char → Except Fault (List Char)
  | '#' :: cs =>
    if (cs.takeWhile (· != '\n')).any isForbidden then .error .malformed
    else .ok (cs.dropWhile (· != '\n'))
  | cs => .ok cs

/-- Drop margins, line ends and comments. -/
def skipLines : Nat → List Char → Except Fault (List Char)
  | 0, cs => .ok cs
  | fuel + 1, cs =>
    match cs.dropWhile isMarginOrLine with
    | '#' :: rest => do skipLines fuel (← skipComment ('#' :: rest))
    | rest => .ok rest

/-- The character whose number has exactly `width` hexadecimal digits here. -/
def readCodePoint (width : Nat) : Read Char := fun cs =>
  match (cs.take width).mapM Text.hexValue? with
  | none => .error .malformed
  | some ds =>
    let n := ds.foldl (fun n d => n * 16 + d) 0
    if ds.length = width ∧ n.isValidChar then .ok (Char.ofNat n, cs.drop width)
    else .error .malformed

/-- After a backslash: a character, or nothing when a line end is escaped. -/
def readEscape (lines : Bool) : Read (List Char)
  | 'b' :: cs => .ok (['\x08'], cs)
  | 't' :: cs => .ok (['\t'], cs)
  | 'n' :: cs => .ok (['\n'], cs)
  | 'f' :: cs => .ok (['\x0c'], cs)
  | 'r' :: cs => .ok (['\r'], cs)
  | '"' :: cs => .ok (['"'], cs)
  | '\\' :: cs => .ok (['\\'], cs)
  | 'u' :: cs => (readCodePoint 4 cs).map fun r => ([r.1], r.2)
  | 'U' :: cs => (readCodePoint 8 cs).map fun r => ([r.1], r.2)
  | c :: cs =>
    if lines ∧ isMarginOrLine c then
      match (c :: cs).dropWhile isMargin with
      | '\n' :: rest => .ok ([], rest.dropWhile isMarginOrLine)
      | _ => .error .malformed
    else .error .malformed
  | [] => .error .malformed

/-- The rest of a text between double quotes, three of them when it may span lines. -/
def readBasic (lines : Bool) : Nat → Read (List Char)
  | 0, _ => .error .malformed
  | _ + 1, [] => .error .malformed
  | fuel + 1, '"' :: cs =>
    if ¬ lines then .ok ([], cs)
    else match cs with
      | '"' :: '"' :: rest => .ok ([], rest)
      | _ => (readBasic lines fuel cs).map fun r => ('"' :: r.1, r.2)
  | fuel + 1, '\\' :: cs => do
    let (here, rest) ← readEscape lines cs
    let (later, rest) ← readBasic lines fuel rest
    return (here ++ later, rest)
  | fuel + 1, c :: cs =>
    if isForbidden c ∧ ¬ (lines ∧ c = '\n') then .error .malformed
    else (readBasic lines fuel cs).map fun r => (c :: r.1, r.2)

/-- The rest of a text between single quotes. -/
def readLiteral : Read (List Char) := fun cs =>
  match Text.cutAt '\'' cs with
  | (_, none) => .error .malformed
  | (body, some rest) => if body.any isForbidden then .error .malformed else .ok (body, rest)

/-- The rest of a text between triple single quotes. -/
def readLiteralLines : Read (List Char)
  | '\'' :: '\'' :: '\'' :: rest => .ok ([], rest)
  | c :: cs =>
    if isForbiddenInLines c then .error .malformed
    else (readLiteralLines cs).map fun r => (c :: r.1, r.2)
  | [] => .error .malformed

/-- Up to two quotes may stand directly before three closing ones. -/
def readTrailing (mark : Char) (body : List Char) : List Char → List Char × List Char
  | a :: b :: cs =>
    if a = mark then (if b = mark then (body ++ [mark, mark], cs) else (body ++ [mark], b :: cs))
    else (body, a :: b :: cs)
  | [a] => if a = mark then (body ++ [mark], []) else (body, [a])
  | [] => (body, [])

def dropLineEnd : List Char → List Char
  | '\n' :: cs => cs
  | cs => cs

def isBareKeyChar (c : Char) : Bool :=
  c.isAlphanum || c == '-' || c == '_'

def readKeyPart : Read String
  | '\'' :: cs => (readLiteral cs).map fun r => (String.ofList r.1, r.2)
  | '"' :: cs => (readBasic false (cs.length + 1) cs).map fun r => (String.ofList r.1, r.2)
  | cs =>
    if (cs.takeWhile isBareKeyChar).isEmpty then .error .malformed
    else .ok (String.ofList (cs.takeWhile isBareKeyChar), cs.dropWhile isBareKeyChar)

/-- Parts separated by points; margins may stand after each part and point. -/
def readKey : Nat → Read Key
  | 0, _ => .error .malformed
  | fuel + 1, cs => do
    let (part, rest) ← readKeyPart cs
    match skipMargin rest with
    | '.' :: rest => do
      let (parts, rest) ← readKey fuel (skipMargin rest)
      return (part :: parts, rest)
    | rest => return ([part], rest)

/-- Digits, each with one underscore before it or none. -/
def moreDigits (isDigit : Char → Bool) : List Char → List Char × List Char
  | [] => ([], [])
  | '_' :: d :: cs =>
    if isDigit d then
      let (ds, rest) := moreDigits isDigit cs
      (d :: ds, rest)
    else ([], '_' :: d :: cs)
  | d :: cs =>
    if isDigit d then
      let (ds, rest) := moreDigits isDigit cs
      (d :: ds, rest)
    else ([], d :: cs)

/-- A digit and more digits. -/
def someDigits (isDigit : Char → Bool) : List Char → Option (List Char × List Char)
  | d :: cs =>
    if isDigit d then
      let (ds, rest) := moreDigits isDigit cs
      some (d :: ds, rest)
    else none
  | [] => none

def inBase (base : Nat) (ds : List Char) : Nat :=
  ds.foldl (fun n c => n * base + (Text.hexValue? c).getD 0) 0

def digitOf (base : Nat) (c : Char) : Bool :=
  match Text.hexValue? c with
  | some d => d < base
  | none => false

/-- A whole number after a mark for base sixteen, eight or two. -/
def readMarked : List Char → Option (Document.Value × List Char)
  | '0' :: 'x' :: cs => marked 16 cs
  | '0' :: 'o' :: cs => marked 8 cs
  | '0' :: 'b' :: cs => marked 2 cs
  | _ => none
where
  marked (base : Nat) (cs : List Char) : Option (Document.Value × List Char) :=
    (someDigits (digitOf base) cs).map fun r => (.integer (inBase base r.1), r.2)

/-- The whole part of a decimal number: a zero, or digits that start with another digit. -/
def wholePart : List Char → Option (List Char × List Char)
  | '0' :: cs => some (['0'], cs)
  | cs => someDigits Text.isAsciiDigit cs

def fractionPart (cs : List Char) : Option (List Char) × List Char :=
  match cs with
  | '.' :: rest =>
    match someDigits Text.isAsciiDigit rest with
    | some (ds, rest) => (some ds, rest)
    | none => (none, cs)
  | _ => (none, cs)

def signOf : List Char → Bool × List Char
  | '-' :: cs => (true, cs)
  | '+' :: cs => (false, cs)
  | cs => (false, cs)

def exponentPart (cs : List Char) : Option Int × List Char :=
  match cs with
  | e :: rest =>
    if e = 'e' ∨ e = 'E' then
      let (negative, digits) := signOf rest
      match someDigits Text.isAsciiDigit digits with
      | some (ds, rest) =>
        (some (if negative then -(Text.asciiNumber ds : Int) else Text.asciiNumber ds), rest)
      | none => (none, cs)
    else (none, cs)
  | [] => (none, [])

/-- A decimal number. One with neither fraction nor exponent is whole. -/
def readDecimal (cs : List Char) : Option (Except Fault (Document.Value × List Char)) := do
  let (negative, rest) := signOf cs
  let (whole, rest) ← wholePart rest
  match fractionPart rest with
  | (fraction, rest) =>
    match exponentPart rest with
    | (exponent, rest) =>
      if fraction.isNone ∧ exponent.isNone then
        if Text.digitLimit < whole.length then some (.error (.tooManyDigits whole.length))
        else
          let n : Int := Text.asciiNumber whole
          some (.ok (.integer (if negative then -n else n), rest))
      else
        let ds := whole ++ fraction.getD []
        let x := Number.ofDecimal negative (Text.asciiNumber ds) ds.length
          (exponent.getD 0 - (fraction.getD []).length)
        some (.ok (.real x, rest))

def readSpecial (cs : List Char) : Option (Document.Value × List Char) :=
  let (negative, rest) := signOf cs
  match rest with
  | 'i' :: 'n' :: 'f' :: rest => some (.real (.infinite negative), rest)
  | 'n' :: 'a' :: 'n' :: rest => some (.real .undefined, rest)
  | _ => none

def twoDigits (limit : Nat) (cs : List Char) : Option (Nat × List Char) :=
  (Calendar.readNumber 2 cs).filter fun r => r.1 < limit

def afterChar (c : Char) : List Char → Option (List Char)
  | d :: cs => if d = c then some cs else none
  | [] => none

/-- Hours, minutes, seconds and at most six digits of a fraction that count. -/
def readClock (cs : List Char) : Option (Calendar.TimeOfDay × List Char) := do
  let (h, cs) ← twoDigits 24 cs
  let (m, cs) ← twoDigits 60 (← afterChar ':' cs)
  let (s, cs) ← twoDigits 60 (← afterChar ':' cs)
  match Calendar.readFraction cs with
  | some (f, rest) => return (⟨h, m, s, f⟩, rest)
  | none => return (⟨h, m, s, 0⟩, cs)

def readZone (cs : List Char) : Option Int × List Char :=
  match cs with
  | 'Z' :: rest | 'z' :: rest => (some 0, rest)
  | sign :: rest =>
    let zone := do
      let (h, rest) ← twoDigits 24 rest
      let (m, rest) ← twoDigits 60 (← afterChar ':' rest)
      return (((h * 60 + m) * 60000000 : Nat), rest)
    match zone with
    | some (micros, rest) =>
      if sign = '+' then (some micros, rest)
      else if sign = '-' then (some (-(micros : Int)), rest)
      else (none, cs)
    | none => (none, cs)
  | [] => (none, [])

/-- A date, or a date and a time of day with or without a zone. -/
def readMoment (cs : List Char) : Option (Except Fault (Document.Value × List Char)) := do
  let (date, rest) ← Calendar.readDate cs
  let timed : Option (Document.Value × List Char) :=
    match rest with
    | c :: later =>
      if c = 'T' ∨ c = 't' ∨ c = ' ' then
        (readClock later).map fun r =>
          let (offset, rest) := readZone r.2
          (.moment ⟨date, r.1, offset⟩, rest)
      else none
    | [] => none
  if date.valid then some (.ok (timed.getD (.date date, rest)))
  else some (.error .malformed)

end GalleryCatalog.Toml
