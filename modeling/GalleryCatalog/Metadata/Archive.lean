import GalleryCatalog.Text.Quoted

/-!
# Archives

An archive is known by its hash from the start and by its number once it is stored.
-/

set_option autoImplicit false

namespace GalleryCatalog

structure Archive where
  id : Option Int := none
  hash : String
  title : String
  deriving DecidableEq, Repr

/-- An archive that has no number yet. -/
structure NotStored where
  hash : String
  deriving DecidableEq, Repr

def NotStored.message (e : NotStored) : String :=
  "Archive " ++ Text.quote e.hash ++ " has not been persisted yet"

def Archive.storedId (a : Archive) : Except NotStored Int :=
  match a.id with
  | some id => .ok id
  | none => .error ⟨a.hash⟩

end GalleryCatalog
