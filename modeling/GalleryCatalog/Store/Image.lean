import GalleryCatalog.Store.Statement

/-!
# Image rows

An archive has one image row a page. An image put on a page that is there changes
the row in place, and dimensions that it does not give stay.
-/

set_option autoImplicit false

namespace GalleryCatalog

def ImageRow.isPage (archive page : Int) (r : ImageRow) : Bool :=
  r.archive = archive ∧ r.page = page

/-- The row of a page after another image has been put on it. -/
def ImageRow.updated (i : Image) (r : ImageRow) : ImageRow :=
  { r with
    filename := i.filename
    width := i.width.or r.width
    height := i.height.or r.height }

namespace Store

/-- The images of an archive, by page. -/
def imagesOf (s : Store) (archive : Int) : List Image :=
  ((s.images.filter fun r => r.archive = archive).map ImageRow.image).mergeSort
    fun a b => a.page ≤ b.page

def listImages (archive : Int) : Statement (List Image) := do
  requireFits [archive]
  return (← get).imagesOf archive

/-- Put one image on its page and show the row after that. -/
def putImage (archive : Int) (i : Image) (s : Store) : Image × Store :=
  match s.images.find? (·.isPage archive i.page) with
  | some old =>
    ((old.updated i).image,
      { s with
        images := s.images.map fun r =>
          if r.isPage archive i.page then r.updated i else r })
  | none =>
    let row : ImageRow :=
      ⟨nextId (s.images.map (·.id)), archive, i.page, i.filename, i.width, i.height⟩
    (row.image, { s with images := s.images ++ [row] })

def putImages (archive : Int) : List Image → Store → List Image × Store
  | [], s => ([], s)
  | i :: is, s =>
    let (row, s) := putImage archive i s
    let (rows, s) := putImages archive is s
    (row :: rows, s)

def imageIntegers (i : Image) : List Int :=
  i.page :: (i.width.toList ++ i.height.toList)

/-- Put images on their pages, all or none of them. Each image has five values. -/
def upsertImages (archive : Int) (images : List Image) : Statement (List Image) := do
  requireParameters (5 * images.length)
  requireFits (archive :: images.flatMap imageIntegers)
  modifyGet (putImages archive images)

def deletePages (archive : Int) (pages : List Int) : Statement Unit := do
  requireParameters (pages.length + 1)
  requireFits (archive :: pages)
  modify fun s =>
    { s with images := s.images.filter fun r => ¬ (r.archive = archive ∧ pages.contains r.page) }

end Store

end GalleryCatalog
