import GalleryCatalog.Workspace

/-!
# Reconciling images

The pages of an archive become the incoming ones. Of several images for one page
the last one wins. Pages whose file name changes are updated in place, and before
that their files may be removed from the images directory. Only pages that are no
longer incoming lose their row.
-/

set_option autoImplicit false

namespace GalleryCatalog.Reconcile

/-- The last image for a page. -/
def winner? (images : List Image) (page : Int) : Option Image :=
  (images.filter fun i => i.page = page).getLast?

/-- The winning images, in the order in which their pages first appear. -/
def winners (images : List Image) : List Image :=
  (images.map Image.page).eraseDups.filterMap (winner? images)

def hasPage (images : List Image) (page : Int) : Bool :=
  images.any fun i => i.page = page

/-- Stored images whose page is incoming under another file name. -/
def replacedImages (wanted current : List Image) : List Image :=
  current.filter fun c => wanted.any fun i => i.page = c.page ∧ i.filename ≠ c.filename

def newImages (wanted current : List Image) : List Image :=
  wanted.filter fun i => !hasPage current i.page

/-- Stored pages that are not incoming. -/
def stalePages (wanted current : List Image) : List Int :=
  (current.map Image.page).filter fun page => !hasPage wanted page

/-- Remove the files of replaced pages if asked to. -/
def removeReplaced (files : Option PageFile.Directory) (removeOnUpdate : Bool) (hash : String)
    (replaced : List Image) : Work Nat :=
  match files with
  | some dir =>
    if removeOnUpdate ∧ replaced ≠ [] then
      Work.onFiles fun t => dir.removePages t hash (replaced.map Image.page)
    else pure 0
  | none => pure 0

def images (archive : Int) (hash : String) (files : Option PageFile.Directory)
    (removeOnUpdate : Bool) (incoming : List Image) : Work ImageOutcome := do
  let wanted := winners incoming
  let current ← Work.access (Repository.images archive)
  let replaced := replacedImages wanted current
  let removedFiles ← removeReplaced files removeOnUpdate hash replaced
  let _ ← Work.access (Repository.upsertImages archive wanted)
  let stale := stalePages wanted current
  Work.access (Repository.deletePages archive stale)
  return {
    inserted := (newImages wanted current).length
    updated := replaced.length
    deleted := stale.length
    removedFiles }

end GalleryCatalog.Reconcile
