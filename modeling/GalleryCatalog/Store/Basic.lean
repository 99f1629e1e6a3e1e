import GalleryCatalog.Calendar.Moment
import GalleryCatalog.Metadata.Basic

/-!
# The store

Five tables: archives, sources, images, tags and links. Tags are shared by all
archives and a link ties an archive to a tag. Rows stand in the order in which they
were added. A new row is numbered one above the highest number in its table, so a
number is used again once all rows above it are gone.
-/

set_option autoImplicit false

namespace GalleryCatalog

/-- `created` is universal time without an offset. -/
structure ArchiveRow where
  id : Int
  hash : String
  title : String
  created : Calendar.Moment
  deriving DecidableEq, Repr

structure SourceRow where
  id : Int
  archive : Int
  name : String
  url : Option String
  deriving DecidableEq, Repr

structure ImageRow where
  id : Int
  archive : Int
  page : Int
  filename : String
  width : Option Int
  height : Option Int
  deriving DecidableEq, Repr

structure TagRow where
  id : Int
  tag : Tag
  deriving DecidableEq, Repr

structure LinkRow where
  archive : Int
  tag : Int
  deriving DecidableEq, Repr

structure Store where
  archives : List ArchiveRow := []
  sources : List SourceRow := []
  images : List ImageRow := []
  tags : List TagRow := []
  links : List LinkRow := []
  deriving DecidableEq, Repr

def SourceRow.source (r : SourceRow) : Source :=
  ⟨some r.name, r.url⟩

def ImageRow.image (r : ImageRow) : Image :=
  ⟨r.filename, r.page, r.width, r.height⟩

/-- The number of the next row of a table with the given numbers. -/
def nextId (ids : List Int) : Int :=
  match ids.max? with
  | some n => n + 1
  | none => 1

/-- A column holds signed integers of 64 bits. -/
def fits (n : Int) : Bool :=
  -0x8000000000000000 ≤ n && n < 0x8000000000000000

theorem lt_nextId {ids : List Int} {n : Int} (h : n ∈ ids) : n < nextId ids := by
  unfold nextId
  cases hm : ids.max? with
  | none => simp [List.max?_eq_none_iff.mp hm] at h
  | some m =>
    have := (List.max?_eq_some_iff.mp hm).2 n h
    simp only
    omega

theorem nextId_not_mem (ids : List Int) : nextId ids ∉ ids :=
  fun h => absurd (lt_nextId h) (by omega)

end GalleryCatalog
