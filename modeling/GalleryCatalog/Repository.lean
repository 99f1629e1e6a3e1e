import GalleryCatalog.Store.Archive
import GalleryCatalog.Store.Image
import GalleryCatalog.Store.Link
import GalleryCatalog.Store.Source
import GalleryCatalog.Store.Tag

/-!
# Repositories

Within a unit of work statements run on its view of the store. An archive that
cannot be added undoes the whole view, and then every statement fails. An empty
batch runs no statement.
-/

set_option autoImplicit false

namespace GalleryCatalog

inductive View where
  | live (store : Store)
  | undone
  deriving DecidableEq, Repr

abbrev Access := EStateM StoreError View

/-- Run a statement on the view. -/
def Statement.onView {α : Type} (x : Statement α) : Access α
  | .live s =>
    match x s with
    | .ok a s => .ok a (.live s)
    | .error e s => .error e (.live s)
  | .undone => .error .undone .undone

/-- Run a statement on the view, and undo the view if it fails. -/
def Statement.orUndo {α : Type} (x : Statement α) : Access α
  | .live s =>
    match x s with
    | .ok a s => .ok a (.live s)
    | .error e _ => .error e .undone
  | .undone => .error .undone .undone

namespace Repository

def addArchive (a : NewArchive) : Access Int :=
  (Store.addArchive a).orUndo

def archive? (id : Int) : Access (Option ArchiveRow) :=
  (Store.archive? id).onView

def archiveByHash? (hash : Option String) : Access (Option ArchiveRow) :=
  (Store.archiveByHash? hash).onView

def sources (archive : Int) : Access (List Source) :=
  (Store.listSources archive).onView

def addSource (archive : Int) (source : Source) : Access Unit :=
  (Store.addSource archive source).onView

def deleteSource (archive : Int) (source : Source) : Access Unit :=
  (Store.deleteSource archive source).onView

def images (archive : Int) : Access (List Image) :=
  (Store.listImages archive).onView

def upsertImages (archive : Int) (images : List Image) : Access (List Image) :=
  if images = [] then pure [] else (Store.upsertImages archive images).onView

def deletePages (archive : Int) (pages : List Int) : Access Unit :=
  if pages = [] then pure () else (Store.deletePages archive pages).onView

def findTags (tags : List Tag) : Access (List TagRow) :=
  if tags = [] then pure [] else (Store.findTags tags).onView

def upsertTags (tags : List Tag) : Access (List TagRow) :=
  if tags = [] then pure [] else (Store.upsertTags tags).onView

def links (archive : Int) : Access (List TagRow) :=
  (Store.listLinks archive).onView

def addLinks (archive : Int) (tags : List Int) : Access Unit :=
  if tags = [] then pure () else (Store.addLinks archive tags).onView

def deleteLink (archive tag : Int) : Access Unit :=
  (Store.deleteLink archive tag).onView

end Repository

end GalleryCatalog
