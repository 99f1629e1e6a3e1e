import GalleryCatalog.Reconcile.Image
import GalleryCatalog.Reconcile.Source
import GalleryCatalog.Reconcile.Tag

/-!
# Reconciling an archive

Sources come first, then tags, then images, so that files are touched only when
sources and tags are done. A collection that the metadata leaves out is not touched.
-/

set_option autoImplicit false

namespace GalleryCatalog.Reconcile

structure Options where
  sourceRules : List SourceRule := []
  tagRules : List TagRule := []
  removeOnUpdate : Bool := false
  mergeSources : Bool := false
  verbose : Bool := false
  deriving DecidableEq, Repr

/-- Run a pass on a collection that is there. -/
def optionally {α β : Type} (pass : α → Work β) : Option α → Work (Option β)
  | none => pure none
  | some a => do return some (← pass a)

/-- Reconcile one archive, whose hash names the directory of its files. -/
def archive (answers : TagAnswers) (o : Options) (files : Option PageFile.Directory)
    (id : Int) (hash : String) (m : Metadata) : Work ArchiveOutcome := do
  let sources ← optionally (sources id o.sourceRules o.mergeSources o.verbose) m.sources
  let tags ← optionally (tags answers id o.tagRules) m.tags
  let images ← optionally (images id hash files o.removeOnUpdate) m.images
  return { archive := id, sources, images, tags }

end GalleryCatalog.Reconcile
