import GalleryCatalog.Session.Basic

/-!
# Serving requests

A request gives a reply or a failure, and in both cases the session goes on from
where the request left it.
-/

set_option autoImplicit false

namespace GalleryCatalog.Session

/-- Use the repositories of the unit of work. -/
def access {α : Type} (x : Access α) : Step α :=
  onUnit (Work.access x)

/-- Call a service under the settings of the session. -/
def service {α : Type} (c : Conditions) (x : Service.Context → Work α) : Step α := do
  let context := (← get).context c
  onServices (Action.service (x context))

/-- Do the same without opening a database. -/
def serviceOnBound {α : Type} (c : Conditions) (x : Service.Context → Work α) : Step α := do
  let context := (← get).context c
  onServices do Action.workOn (← Action.boundEngine) (x context)

def enter : Step Unit := do
  if (← get).unit.isNone then newUnit
  onUnit (Work.ofUnit UnitOfWork.enter)

/-- Binding the session's own database brings it up to date, which commits what the open
unit of work has done there. -/
def commitPending : Step Unit :=
  modify fun s =>
    match s.pending? with
    | some (e, work) =>
      if e = own then { s with application := s.application.putStore e work } else s
    | none => s

/-- The options of a reconciliation without files. -/
def bareOptions (s : Settings) (merge verbose : Bool) : Option Bool → Reconcile.Options
  | none => {}
  | some removeOnUpdate =>
    { sourceRules := s.sourceRules
      tagRules := s.tagRules
      removeOnUpdate
      mergeSources := merge
      verbose }

def metadataPath (s : Session) : Path :=
  (Path.ofLocation s.here).join ⟨.relative, ["metadata.json"]⟩

/-- Put the metadata file in place, or take it away, and forget which keys were
reported. -/
def placeMetadata (text : Option String) : Step Unit :=
  modify fun s =>
    let l := s.metadataPath.resolved s.here
    let tree := match text with
      | some text => s.application.tree.write l text.toUTF8
      | none => s.application.tree.remove l
    { s with application := { s.application with tree, reported := [] } }

def importText (c : Conditions) (archive : Int) (text : Option String) (merge verbose : Bool) :
    Step ArchiveOutcome := do
  placeMetadata text
  let s : Session ← get
  onServices (Action.importFile (pure (s.context c)) archive s.metadataPath merge verbose)

/-- Reconcile and fail at the end. -/
def failAfter (context : Service.Context) (files : PageFile.Directory) (archive : Int)
    (m : Metadata) (message : String) : Work Unit :=
  Service.forArchive archive fun row => do
    let _ ← Reconcile.archive context.answers (context.options false false) (some files)
      row.id row.hash m
    throw (.ofCaller message)

def configure (doc : Document.Entries) : Step Unit := do
  match settingsOf (← get).application.host doc with
  | .ok settings => modify fun s => { s with settings }
  | .error e => throw (.settings e)

def onTree (f : Session → FileTree → FileTree) : Step Unit :=
  modify fun s => { s with application := { s.application with tree := f s s.application.tree } }

/-- The name of a file from the images directory on, as far as it lies there. -/
def shownName (s : Session) (path : Path) : String :=
  let root := s.images.names
  if root.isPrefixOf path.names then (Path.mk .relative (path.names.drop root.length)).text
  else path.text

def findFiles (hash : String) (pages : List Int) : Step (List String) := do
  let s : Session ← get
  let dir := s.directory {}
  let found := dir.find s.application.tree hash pages
  return found.map fun names => s.shownName ((dir.archiveDirectory hash).join ⟨.relative, names⟩)

def removeFile (c : Conditions) (name : String) : Step Bool := do
  let s : Session ← get
  let dir := s.directory c
  match s.application.tree.locate s.here (s.imagePath name) with
  | .error .zeroInName => throw (.path .zeroInName)
  | .error _ => return false
  | .ok l =>
    let (gone, tree) := dir.remove s.application.tree l
    modify fun s => { s with application := { s.application with tree } }
    return gone

def findTags (c : Conditions) (tags : List Tag) : Step (List TagRow) := do
  let rows ← onUnit (Reconcile.lookUp c.answers tags)
  return rows.mergeSort fun a b => a.id ≤ b.id

def archiveReply (row : Option ArchiveRow) (withDate : Bool) : Reply :=
  .archive (row.map ArchiveRow.archive)
    (if withDate then row.map fun r => r.created.restored else none)

/-- A moment as it is written, or another one where none is. -/
def momentOr (other : Calendar.Moment) : Option String → Step Calendar.Moment
  | none => pure other
  | some text =>
    match Calendar.Moment.read text with
    | .ok m => pure m
    | .error fault => throw (.moment fault)

def serve (now : Calendar.Moment) (c : Conditions) : Request → Step Reply
  | .createArchive hash title => do
    return .archive (some (← serviceOnBound c fun _ => Service.createArchive now hash title)) none
  | .syncSources archive sources merge verbose => do
    return .sourceOutcome
      (← service c fun context => Service.syncSources context archive merge verbose sources)
  | .syncImages archive images => do
    return .imageOutcome (← service c fun context => Service.syncImages context archive images)
  | .syncTags archive tags => do
    return .tagOutcome (← service c fun context => Service.syncTags context archive tags)
  | .reconcile archive m merge verbose => do
    return .archiveOutcome
      (← service c fun context => Service.reconcile context archive merge verbose m)
  | .reconcileBare archive m removeOnUpdate merge verbose => do
    return .archiveOutcome (← serviceOnBound c fun context =>
      Service.reconcileWith context.answers
        (bareOptions context.settings merge verbose removeOnUpdate) none archive m)
  | .importText archive text merge verbose => do
    return .archiveOutcome (← importText c archive text merge verbose)
  | .failAfter archive m message => do
    let files := (← get).directory c
    serviceOnBound c fun context => failAfter context files archive m message
    return .done
  | .configure doc => do
    configure doc
    return .done
  | .newUnit => do
    newUnit
    return .done
  | .enter => do
    enter
    return .done
  | .exit => do
    onUnit (Work.ofUnit UnitOfWork.exit)
    return .answer false
  | .commit => do
    onUnit Work.commit
    return .done
  | .rollback => do
    onUnit (Work.ofUnit UnitOfWork.rollback)
    return .done
  | .startup force => do
    onApplication (Action.bind own force)
    commitPending
    return .done
  | .unbind => do
    modify fun s => { s with application := { s.application with bound := none } }
    return .done
  | .isStarted => do
    let bound := (← get).application.bound
    return .started bound.isSome (bound = some own)
  | .addArchive id hash title created => do
    let created ← momentOr now created
    return .number (← access (Repository.addArchive ⟨id, hash, title, created⟩))
  | .archive id withDate => do
    return archiveReply (← access (Repository.archive? id)) withDate
  | .archiveByHash hash => do
    return archiveReply (← access (Repository.archiveByHash? hash)) false
  | .listSources archive => do
    return .sources (← access (Repository.sources archive))
  | .addSource archive source => do
    access (Repository.addSource archive source)
    return .done
  | .deleteSource archive source => do
    access (Repository.deleteSource archive source)
    return .done
  | .listImages archive => do
    return .images (← access (Repository.images archive))
  | .upsertImages archive images => do
    return .images (← access (Repository.upsertImages archive images))
  | .deletePages archive pages => do
    access (Repository.deletePages archive pages)
    return .done
  | .findTags tags => do
    return .tagRows (← findTags c tags)
  | .upsertTags tags => do
    return .tagRows (← onUnit (Reconcile.upsert c.answers tags))
  | .listLinks archive => do
    return .links (← access (Repository.links archive))
  | .addLinks archive tags => do
    access (Repository.addLinks archive tags)
    return .done
  | .deleteLink archive tag => do
    access (Repository.deleteLink archive tag)
    return .done
  | .reconcileOpen archive hash m merge verbose => do
    let s : Session ← get
    return .parts (← onUnit (Reconcile.archive c.answers ((s.context c).options merge verbose)
      (some (s.directory c)) archive hash m))
  | .writeFiles names => do
    onTree fun s t => names.foldl (fun t name => t.write (s.imageLocation name) .empty) t
    return .done
  | .makeFolder name => do
    onTree fun s t => t.addFolders (s.imageLocation name)
    return .done
  | .findFiles hash pages => do
    return .names (← findFiles hash pages)
  | .removeFile name => do
    return .answer (← removeFile c name)

/-- What came of a request: the reply or the failure, and the notices given. -/
structure Response where
  result : Except Failure Reply
  notices : List Notice

def respond (now : Calendar.Moment) (c : Conditions) (r : Request) (s : Session) :
    Response × Session :=
  let s := { s with application := { s.application with notices := [] }, left := none }
  match serve now c r s with
  | .ok reply s => (⟨.ok reply, s.application.notices⟩, s)
  | .error e s => (⟨.error e, s.application.notices⟩, s)

end GalleryCatalog.Session
