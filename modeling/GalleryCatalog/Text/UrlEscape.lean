import GalleryCatalog.Text.Digit
import GalleryCatalog.Text.Quoted

/-!
# Escapes in addresses

In an address a percent sign and two hexadecimal digits stand for a byte, and bytes are
read as UTF-8. Bytes that are not UTF-8 read as replacement characters, one for each
beginning of a character that is not continued. A percent sign without two digits
stands for itself.
-/

set_option autoImplicit false

namespace GalleryCatalog.Text

/-- A byte, which may be part of a character, or a character that needs several. -/
inductive Piece where
  | byte (n : Nat)
  | char (c : Char)
  deriving DecidableEq, Repr

def piece (c : Char) : Piece :=
  if c.toNat < 0x80 then .byte c.toNat else .char c

def pieces : List Char → List Piece
  | [] => []
  | '%' :: a :: b :: cs =>
    match hexValue? a, hexValue? b with
    | some x, some y => .byte (x * 16 + y) :: pieces cs
    | _, _ => piece '%' :: pieces (a :: b :: cs)
  | c :: cs => piece c :: pieces cs

/-- The beginning of a character: its bits, the bytes still to come, and the limits of the
next one. -/
structure Begun where
  bits : Nat
  left : Nat
  low : Nat := 0x80
  high : Nat := 0xBF
  deriving DecidableEq, Repr

def replacement : Char := '\uFFFD'

/-- The first byte of a character. -/
def beginning (n : Nat) : List Char × Option Begun :=
  if n < 0x80 then ([Char.ofNat n], none)
  else if n < 0xC2 ∨ 0xF4 < n then ([replacement], none)
  else if n < 0xE0 then ([], some { bits := n - 0xC0, left := 1 })
  else if n = 0xE0 then ([], some { bits := 0, left := 2, low := 0xA0 })
  else if n = 0xED then ([], some { bits := 0xD, left := 2, high := 0x9F })
  else if n < 0xF0 then ([], some { bits := n - 0xE0, left := 2 })
  else if n = 0xF0 then ([], some { bits := 0, left := 3, low := 0x90 })
  else if n = 0xF4 then ([], some { bits := 4, left := 3, high := 0x8F })
  else ([], some { bits := n - 0xF0, left := 3 })

/-- The replacement of a beginning that is not continued. -/
def unfinished (begun : Option Begun) : List Char :=
  if begun.isSome then [replacement] else []

def joinPieces : Option Begun → List Piece → List Char
  | begun, [] => unfinished begun
  | begun, .char c :: ps => unfinished begun ++ c :: joinPieces none ps
  | none, .byte n :: ps => (beginning n).1 ++ joinPieces (beginning n).2 ps
  | some b, .byte n :: ps =>
    if b.low ≤ n ∧ n ≤ b.high then
      let bits := b.bits * 64 + (n - 0x80)
      if b.left = 1 then Char.ofNat bits :: joinPieces none ps
      else joinPieces (some { bits, left := b.left - 1 }) ps
    else replacement :: (beginning n).1 ++ joinPieces (beginning n).2 ps

/-- Read escapes. -/
def unescapeUrl (cs : List Char) : List Char :=
  if cs.contains '%' then joinPieces none (pieces cs) else cs

/-- Read escapes in text that has plus signs for spaces. -/
def unescapeForm (cs : List Char) : List Char :=
  unescapeUrl (cs.map fun c => if c = '+' then ' ' else c)

/-- The characters that never need an escape. -/
def isPlain (c : Char) : Bool :=
  c.isAlphanum || c == '_' || c == '.' || c == '-' || c == '~'

def escapeByte (n : UInt8) : List Char :=
  '%' :: (hexDigits 2 n.toNat).map Char.toUpper

/-- Write everything but plain and safe characters as escapes. -/
def escapeUrl (safe : List Char) (s : String) : String :=
  String.ofList (s.toUTF8.data.toList.flatMap fun n =>
    let c := Char.ofNat n.toNat
    if isPlain c || safe.contains c then [c] else escapeByte n)

/-- The same with plus signs for spaces. -/
def escapeForm (s : String) : String :=
  (escapeUrl [' '] s).replace " " "+"

end GalleryCatalog.Text
