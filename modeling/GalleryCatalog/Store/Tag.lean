import GalleryCatalog.Store.Statement
import Std.Data.TreeSet

/-!
# Tag rows

There is one row a tag, whatever archives have it. Tags are looked up by their
composite text first, which several tags may share, and then one by one.
-/

set_option autoImplicit false

namespace GalleryCatalog.Store

/-- The rows whose composite text is that of a wanted tag. -/
def tagsLike (s : Store) (wanted : List Tag) : List TagRow :=
  s.tags.filter fun r => (wanted.map Tag.composite).contains r.tag.composite

def tagRowsOf (s : Store) (wanted : List Tag) : List TagRow :=
  (s.tagsLike wanted).filter fun r => wanted.contains r.tag

/-- The composite texts of tags, each once and in order. -/
def composites (tags : List Tag) : Std.TreeSet String :=
  .ofList (tags.map Tag.composite)

/-- The texts are bound, and the colon between their parts. -/
def findTags (wanted : List Tag) : Statement (List TagRow) := do
  requireParameters ((composites wanted).size + 1)
  return (← get).tagRowsOf wanted

/-- The row of a tag, added where there is none. -/
def putTag (t : Tag) (s : Store) : TagRow × Store :=
  match s.tags.find? fun r => r.tag = t with
  | some row => (row, s)
  | none =>
    let row : TagRow := ⟨nextId (s.tags.map (·.id)), t⟩
    (row, { s with tags := s.tags ++ [row] })

def putTags : List Tag → Store → List TagRow × Store
  | [], s => ([], s)
  | t :: ts, s =>
    let (row, s) := putTag t s
    let (rows, s) := putTags ts s
    (row :: rows, s)

/-- Give tags a row, all or none of them. Each tag has two values. -/
def upsertTags (tags : List Tag) : Statement (List TagRow) := do
  requireParameters (2 * tags.length)
  modifyGet (putTags tags)

end GalleryCatalog.Store
