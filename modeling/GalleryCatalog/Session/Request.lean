import GalleryCatalog.Application

/-!
# Requests

What can be asked of a session: services, steps of a unit of work, single
statements, and work on image files.
-/

set_option autoImplicit false

namespace GalleryCatalog.Session

inductive Request where
  | createArchive (hash title : String)
  | syncSources (archive : Int) (sources : List Source) (merge verbose : Bool)
  | syncImages (archive : Int) (images : List Image)
  | syncTags (archive : Int) (tags : List Tag)
  | reconcile (archive : Int) (m : Metadata) (merge verbose : Bool)
  /-- Without files, and without rules unless it is said whether files are removed. -/
  | reconcileBare (archive : Int) (m : Metadata) (removeOnUpdate : Option Bool)
      (merge verbose : Bool)
  /-- Put a metadata file in place, or take it away, and import it. -/
  | importText (archive : Int) (text : Option String) (merge verbose : Bool)
  /-- Reconcile and fail at the end. -/
  | failAfter (archive : Int) (m : Metadata) (message : String)
  | configure (document : Document.Entries)
  | newUnit
  | enter
  | exit
  | commit
  | rollback
  | startup (force : Bool)
  | unbind
  | isStarted
  /-- Add an archive as it is given, perhaps with the written moment of its creation. -/
  | addArchive (id : Option Int) (hash title created : Option String)
  | archive (id : Int) (withDate : Bool)
  | archiveByHash (hash : Option String)
  | listSources (archive : Int)
  | addSource (archive : Int) (source : Source)
  | deleteSource (archive : Int) (source : Source)
  | listImages (archive : Int)
  | upsertImages (archive : Int) (images : List Image)
  | deletePages (archive : Int) (pages : List Int)
  | findTags (tags : List Tag)
  | upsertTags (tags : List Tag)
  | listLinks (archive : Int)
  | addLinks (archive : Int) (tags : List Int)
  | deleteLink (archive tag : Int)
  /-- Reconcile within the open unit of work. -/
  | reconcileOpen (archive : Int) (hash : String) (m : Metadata) (merge verbose : Bool)
  | writeFiles (names : List String)
  | makeFolder (name : String)
  | findFiles (hash : String) (pages : List Int)
  | removeFile (name : String)

inductive Reply where
  | done
  | answer (b : Bool)
  | started (bound own : Bool)
  | number (n : Int)
  | archive (a : Option Archive) (created : Option Calendar.Moment)
  | sources (xs : List Source)
  | images (xs : List Image)
  | tagRows (rows : List TagRow)
  | links (rows : List TagRow)
  | sourceOutcome (o : SourceOutcome)
  | imageOutcome (o : ImageOutcome)
  | tagOutcome (o : TagOutcome)
  | archiveOutcome (o : ArchiveOutcome)
  /-- Outcomes of the collections that were there. -/
  | parts (o : ArchiveOutcome)
  | names (xs : List String)
  deriving DecidableEq, Repr

/-- What goes wrong while a request is served: look-ups and upserts that do not show all
rows, and image files that cannot be removed. -/
structure Conditions where
  findNothing : Bool := false
  dropped : List Tag := []
  locked : List String := []
  deriving DecidableEq, Repr

def Conditions.answers (c : Conditions) : Reconcile.TagAnswers where
  found := fun _ => !c.findNothing
  upserted := fun r => !c.dropped.contains r.tag

end GalleryCatalog.Session
