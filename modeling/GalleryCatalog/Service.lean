import GalleryCatalog.Metadata.Archive
import GalleryCatalog.Reconcile.Archive

/-!
# Services

Each service runs in a unit of work of its own and commits at the end. When
anything fails the unit of work is left without a commit, so the store is as it was
before. Files that were removed by then stay removed.
-/

set_option autoImplicit false

namespace GalleryCatalog

def ArchiveRow.archive (r : ArchiveRow) : Archive :=
  ⟨some r.id, r.hash, r.title⟩

namespace Service

/-- What a service goes by. Files in `locked` cannot be removed. -/
structure Context where
  settings : Settings
  here : Location := []
  locked : List Location := []
  answers : Reconcile.TagAnswers := {}

def Context.files (c : Context) : PageFile.Directory :=
  ⟨c.settings.images, c.here, c.locked⟩

def Context.options (c : Context) (merge verbose : Bool) : Reconcile.Options where
  sourceRules := c.settings.sourceRules
  tagRules := c.settings.tagRules
  removeOnUpdate := c.settings.removeOnUpdate
  mergeSources := merge
  verbose := verbose

/-- Work in a unit of work of its own. -/
def inUnit {α : Type} (work : Work α) : Work α := do
  Work.ofUnit UnitOfWork.enter
  try
    let a ← work
    Work.commit
    pure a
  finally
    Work.ofUnit UnitOfWork.exit

/-- Work on an archive that must be there. -/
def forArchive {α : Type} (id : Int) (work : ArchiveRow → Work α) : Work α :=
  inUnit do
    match ← Work.access (Repository.archive? id) with
    | some row => work row
    | none => throw (.noArchive id)

/-- No archive may have the hash. -/
def requireFree (hash : String) : Work Unit := do
  match ← Work.access (Repository.archiveByHash? (some hash)) with
  | some _ => throw (.hashTaken hash)
  | none => return

/-- Add an archive whose hash is not there yet. -/
def createArchive (now : Calendar.Moment) (hash title : String) : Work Archive := do
  let id ← inUnit do
    requireFree hash
    Work.access (Repository.addArchive ⟨none, some hash, some title, now⟩)
  Work.notify (.registered id hash)
  return ⟨some id, hash, title⟩

def syncSources (c : Context) (id : Int) (merge verbose : Bool) (sources : List Source) :
    Work SourceOutcome :=
  forArchive id fun _ => Reconcile.sources id c.settings.sourceRules merge verbose sources

def syncImages (c : Context) (id : Int) (images : List Image) : Work ImageOutcome :=
  forArchive id fun row =>
    Reconcile.images id row.hash (some c.files) c.settings.removeOnUpdate images

def syncTags (c : Context) (id : Int) (tags : List Tag) : Work TagOutcome :=
  forArchive id fun _ => Reconcile.tags c.answers id c.settings.tagRules tags

/-- Reconcile an archive under any options, with or without files. -/
def reconcileWith (answers : Reconcile.TagAnswers) (o : Reconcile.Options)
    (files : Option PageFile.Directory) (id : Int) (m : Metadata) : Work ArchiveOutcome :=
  forArchive id fun row => Reconcile.archive answers o files row.id row.hash m

def reconcile (c : Context) (id : Int) (merge verbose : Bool) (m : Metadata) :
    Work ArchiveOutcome := do
  Work.notify (.reconciling id m)
  let outcome ← reconcileWith c.answers (c.options merge verbose) (some c.files) id m
  Work.notify (.finished outcome)
  return outcome

end Service

end GalleryCatalog
