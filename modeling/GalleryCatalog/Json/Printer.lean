import GalleryCatalog.Json.Value
import GalleryCatalog.Number.Shortest
import GalleryCatalog.Text.Quoted

/-!
# Writing JSON

Texts keep all characters but quotes, backslashes and controls. Numbers that are not
finite have the words under which they are read.
-/

set_option autoImplicit false

namespace GalleryCatalog.Json

def writeChar (c : Char) : List Char :=
  if c = '"' ∨ c = '\\' then ['\\', c]
  else if c.toNat < 0x20 then '\\' :: 'u' :: Text.hexDigits 4 c.toNat
  else [c]

def writeText (s : String) : String :=
  String.ofList ('"' :: s.toList.flatMap writeChar ++ ['"'])

def writeReal : Number.Binary64 → String
  | .infinite false => "Infinity"
  | .infinite true => "-Infinity"
  | .undefined => "NaN"
  | x => x.text

mutual

def Value.write : Value → String
  | .null => "null"
  | .flag b => if b then "true" else "false"
  | .integer n => toString n
  | .real x => writeReal x
  | .text s => writeText s
  | .array items => "[" ++ ", ".intercalate (writeItems items) ++ "]"
  | .object ms => "\x7b" ++ ", ".intercalate (writeMembers ms) ++ "\x7d"

def writeItems : List Value → List String
  | [] => []
  | v :: vs => v.write :: writeItems vs

def writeMembers : List (String × Value) → List String
  | [] => []
  | (name, v) :: ms => (writeText name ++ ": " ++ v.write) :: writeMembers ms

end

end GalleryCatalog.Json
