import GalleryCatalog.Store.Statement

/-!
# Link rows

A link ties an archive to a tag, once. A link shows its tag only while the row of
the tag is there.
-/

set_option autoImplicit false

namespace GalleryCatalog.Store

def linkedTag? (s : Store) (l : LinkRow) : Option TagRow :=
  s.tags.find? fun r => r.id = l.tag

/-- The tags that an archive is linked to, by number. -/
def linksOf (s : Store) (archive : Int) : List TagRow :=
  ((s.links.filter fun l => l.archive = archive).filterMap s.linkedTag?).mergeSort
    fun a b => a.id ≤ b.id

def listLinks (archive : Int) : Statement (List TagRow) := do
  requireFits [archive]
  return (← get).linksOf archive

def addLink (archive tag : Int) : Statement Unit := do
  requireFits [archive, tag]
  if (← get).links.contains ⟨archive, tag⟩ then throw .linked
  else modify fun s => { s with links := s.links ++ [⟨archive, tag⟩] }

def addLinks (archive : Int) (tags : List Int) : Statement Unit :=
  tags.forM (addLink archive)

def deleteLink (archive tag : Int) : Statement Unit := do
  requireFits [archive, tag]
  modify fun s => { s with links := s.links.filter fun l => l ≠ ⟨archive, tag⟩ }

end GalleryCatalog.Store
