import GalleryCatalog.Store.Statement

/-!
# Archive rows

An archive is found by its number or its hash, and both are its own. Rows are never
changed and never removed.
-/

set_option autoImplicit false

namespace GalleryCatalog

/-- An archive to be added. Without a number it gets the next one. -/
structure NewArchive where
  id : Option Int := none
  hash : Option String
  title : Option String
  created : Calendar.Moment
  deriving DecidableEq, Repr

namespace Store

def archive? (id : Int) : Statement (Option ArchiveRow) := do
  requireFits [id]
  return (← get).archives.find? fun r => r.id = id

def archiveByHash? (hash : Option String) : Statement (Option ArchiveRow) := do
  return (← get).archives.find? fun r => some r.hash = hash

/-- The date is settled first, then the range of the number, then what is absent, then
what is taken. -/
def addArchive (a : NewArchive) : Statement Int := do
  match a.created.universal? with
  | none => throw .dateOutOfRange
  | some created =>
    requireFits a.id.toList
    match a.hash, a.title with
    | none, _ => throw (.absent .archiveHash)
    | some _, none => throw (.absent .archiveTitle)
    | some hash, some title =>
      let s : Store ← get
      let id := a.id.getD (nextId (s.archives.map (·.id)))
      if s.archives.any (·.id = id) then throw (.taken .archiveId)
      else if s.archives.any (·.hash = hash) then throw (.taken .archiveHash)
      else
        set ({ s with archives := s.archives ++ [⟨id, hash, title, created.bare⟩] } : Store)
        return id

end Store

end GalleryCatalog
