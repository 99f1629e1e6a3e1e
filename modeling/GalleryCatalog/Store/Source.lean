import GalleryCatalog.Store.Statement

/-!
# Source rows

A source row belongs to one archive and always has a name. Nothing keeps two rows
of an archive from holding the same source.
-/

set_option autoImplicit false

namespace GalleryCatalog.Store

/-- The sources of an archive, oldest first. -/
def sourcesOf (s : Store) (archive : Int) : List Source :=
  (s.sources.filter fun r => r.archive = archive).map SourceRow.source

def listSources (archive : Int) : Statement (List Source) := do
  requireFits [archive]
  return (← get).sourcesOf archive

def addSource (archive : Int) (source : Source) : Statement Unit := do
  requireFits [archive]
  match source.name with
  | none => throw (.absent .sourceName)
  | some name =>
    modify fun s =>
      { s with
        sources := s.sources ++ [⟨nextId (s.sources.map (·.id)), archive, name, source.url⟩] }

/-- Remove all rows of an archive that hold a source. -/
def deleteSource (archive : Int) (source : Source) : Statement Unit := do
  requireFits [archive]
  modify fun s =>
    { s with sources := s.sources.filter fun r => ¬ (r.archive = archive ∧ r.source = source) }

end GalleryCatalog.Store
