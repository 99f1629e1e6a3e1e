import GalleryCatalog.Text.CaseFold

/-!
# Lower case

The lower case of a character of Unicode 14, whatever stands around it. It is the
folding of the character, but for those that are in lower case and fold all the same,
and for capitals that fold to more than one character or to themselves.
-/

set_option autoImplicit false

namespace GalleryCatalog.Text

/-- First and last code points of runs that fold although they are in lower case. -/
def loweredRuns : List (Nat × Nat) := [
  (0x00B5, 0x00B5), (0x00DF, 0x00DF), (0x0149, 0x0149), (0x017F, 0x017F), (0x01F0, 0x01F0),
  (0x0345, 0x0345), (0x0390, 0x0390), (0x03B0, 0x03B0), (0x03C2, 0x03C2), (0x03D0, 0x03D1),
  (0x03D5, 0x03D6), (0x03F0, 0x03F1), (0x03F5, 0x03F5), (0x0587, 0x0587), (0x13F8, 0x13FD),
  (0x1C80, 0x1C88), (0x1E96, 0x1E9B), (0x1F50, 0x1F50), (0x1F52, 0x1F52), (0x1F54, 0x1F54),
  (0x1F56, 0x1F56), (0x1F80, 0x1F87), (0x1F90, 0x1F97), (0x1FA0, 0x1FA7), (0x1FB2, 0x1FB4),
  (0x1FB6, 0x1FB7), (0x1FBE, 0x1FBE), (0x1FC2, 0x1FC4), (0x1FC6, 0x1FC7), (0x1FD2, 0x1FD3),
  (0x1FD6, 0x1FD7), (0x1FE2, 0x1FE4), (0x1FE6, 0x1FE7), (0x1FF2, 0x1FF4), (0x1FF6, 0x1FF7),
  (0xAB70, 0xABBF), (0xFB00, 0xFB06), (0xFB13, 0xFB17)]

/-- Capitals whose lower case is not their folding. -/
def capitalRuns : List FoldRun := [
  ⟨0x13A0, 0x13EF, 1, 38864⟩, ⟨0x13F0, 0x13F5, 1, 8⟩, ⟨0x1E9E, 0x1E9E, 1, -7615⟩,
  ⟨0x1F88, 0x1F8F, 1, -8⟩, ⟨0x1F98, 0x1F9F, 1, -8⟩, ⟨0x1FA8, 0x1FAF, 1, -8⟩,
  ⟨0x1FBC, 0x1FBC, 1, -9⟩, ⟨0x1FCC, 0x1FCC, 1, -9⟩, ⟨0x1FFC, 0x1FFC, 1, -9⟩]

def lowerChar (c : Char) : List Char :=
  if loweredRuns.any fun r => r.1 ≤ c.toNat && c.toNat ≤ r.2 then [c]
  else match capitalRuns.find? (·.covers c.toNat) with
    | some r => [Char.ofNat (Int.toNat (c.toNat + r.offset))]
    | none => foldChar c

def lowerCase (s : String) : String :=
  String.ofList (s.toList.flatMap lowerChar)

end GalleryCatalog.Text
