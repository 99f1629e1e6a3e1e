import GalleryCatalog.Metadata.Mapping
import GalleryCatalog.Workspace

/-!
# Reconciling sources

The sources of an archive become the normalized incoming ones. Merging keeps stored
sources that are not incoming. A source without a name is never stored; it is
skipped, and a verbose run tells of it.
-/

set_option autoImplicit false

namespace GalleryCatalog.Reconcile

/-- Stored sources to be removed. -/
def staleSources (merge : Bool) (wanted current : List Source) : List Source :=
  if merge then [] else current.filter fun s => !wanted.contains s

/-- Incoming sources that are not stored. -/
def freshSources (wanted current : List Source) : List Source :=
  wanted.filter fun s => !current.contains s

def isNamed (s : Source) : Bool :=
  s.givenName.isSome

/-- Store a source, or tell that it has no name. -/
def storeSource (archive : Int) (verbose : Bool) (s : Source) : Work Unit :=
  if isNamed s then Work.access (Repository.addSource archive s)
  else if verbose then Work.notify (.namelessSource archive s.url)
  else pure ()

def sources (archive : Int) (rules : List SourceRule) (merge verbose : Bool)
    (incoming : List Source) : Work SourceOutcome := do
  let wanted := normalizeSources rules incoming
  let current ← Work.access (Repository.sources archive)
  let stale := staleSources merge wanted current
  stale.forM fun s => Work.access (Repository.deleteSource archive s)
  let fresh := freshSources wanted current
  fresh.forM (storeSource archive verbose)
  return {
    inserted := (fresh.filter isNamed).length
    deleted := stale.length
    skipped := (fresh.filter fun s => !isNamed s).length }

end GalleryCatalog.Reconcile
