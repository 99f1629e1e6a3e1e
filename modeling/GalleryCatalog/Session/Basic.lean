import GalleryCatalog.Session.Request

/-!
# Sessions

A session is an application with settings of its own and, once one was made, a unit of
work that outlives single requests. It starts on an empty database in memory, and has
an images directory whatever the settings say.
-/

set_option autoImplicit false

namespace GalleryCatalog

/-- `unit` is the database that a unit of work belongs to, and its session. `left` is what was not
committed when the last request put a new unit of work into the place of an open one. -/
structure Session where
  application : Application
  settings : Settings
  images : Path
  unit : Option (Engine × Option View) := none
  left : Option Store := none

namespace Session

/-- The database with which a session starts. -/
def own : Engine := .memory 0

abbrev Step := EStateM Failure Session

def onApplication {α : Type} (x : Action α) : Step α := fun s =>
  match x s.application with
  | .ok a p => .ok a { s with application := p }
  | .error e p => .error e { s with application := p }

/-- The work of the open unit of work that can be committed. -/
def pending? (s : Session) : Option (Engine × Store) :=
  match s.unit with
  | some (e, some (.live store)) => some (e, store)
  | _ => none

/-- The unit of work after a service. Where the service ran on its database, the store has
become what it sees, but it keeps its own changes to a file. -/
def unitAfter (before : Session) (p : Application) : Option (Engine × Option View) :=
  match before.pending? with
  | none => before.unit
  | some (e, work) =>
    let kept := match e with
      | .memory _ => p.pending.isSome
      | .file _ => work ≠ before.application.storeOf e
    if kept then before.unit else some (e, some (.live (p.storeOf e)))

/-- Call a service, perhaps while the unit of work is open. -/
def onServices {α : Type} (x : Action α) : Step α := fun s =>
  let after (p : Application) : Session :=
    { s with application := { p with pending := none }, unit := s.unitAfter p }
  match x { s.application with pending := s.pending? } with
  | .ok a p => .ok a (after p)
  | .error e p => .error e (after p)

/-- Work in the unit of work. -/
def onUnit {α : Type} (x : Work α) : Step α := fun s =>
  match s.unit with
  | none => .error (.unit (.misuse .notOpen)) s
  | some (e, session) =>
    let after (w : Workspace) : Session :=
      { s with application := s.application.after e w, unit := some (e, w.unit.session) }
    match x (s.application.workspace e session) with
    | .ok a w => .ok a (after w)
    | .error f w => .error f (after w)

/-- Make a unit of work on the database of the application. Work of the one before it that
was not committed is given up, but can still be seen until the next request. -/
def newUnit : Step Unit := fun s =>
  match s.application.bound with
  | none => .error (.unit (.misuse .notStarted)) s
  | some e => .ok () { s with unit := some (e, none), left := s.pending?.map Prod.snd }

def here (s : Session) : Location :=
  s.application.host.here

/-- A path within the images directory. -/
def imagePath (s : Session) (name : String) : Path :=
  s.images.join (Path.ofString name)

def imageLocation (s : Session) (name : String) : Location :=
  (s.imagePath name).resolved s.here

def imageRoot (s : Session) : Location :=
  s.images.resolved s.here

def directory (c : Conditions) (s : Session) : PageFile.Directory where
  root := s.images
  here := s.here
  locked := c.locked.map s.imageLocation

def context (c : Conditions) (s : Session) : Service.Context where
  settings := s.settings
  here := s.here
  locked := c.locked.map s.imageLocation
  answers := c.answers

/-- The store that the session sees: that of the open unit of work, else what one has left
just now, else the one that was committed. -/
def view (s : Session) : View :=
  match s.unit with
  | some (_, some view) => view
  | _ => .live (s.left.getD (s.application.storeOf own))

/-- A view in order: rows by number, links by both of theirs, files by name. -/
structure Snapshot where
  store : Store
  files : List String
  deriving DecidableEq, Repr

def linkOrder (a b : LinkRow) : Bool :=
  a.archive < b.archive ∨ (a.archive = b.archive ∧ a.tag ≤ b.tag)

def sorted (s : Store) : Store where
  archives := s.archives.mergeSort fun a b => a.id ≤ b.id
  sources := s.sources.mergeSort fun a b => a.id ≤ b.id
  images := s.images.mergeSort fun a b => a.id ≤ b.id
  tags := s.tags.mergeSort fun a b => a.id ≤ b.id
  links := s.links.mergeSort linkOrder

def byText (a b : String) : Bool :=
  decide (a ≤ b)

/-- The names of all files below a directory. -/
def fileNames (t : FileTree) (root : Location) : List String :=
  ((t.below root).map fun l => "/".intercalate (l.drop root.length)).mergeSort byText

/-- Nothing can be seen of a view that was undone. -/
def snapshot? (s : Session) : Option Snapshot :=
  match s.view with
  | .live store => some ⟨sorted store, fileNames s.application.tree s.imageRoot⟩
  | .undone => none

/-- A configuration document with an images directory where it names none. -/
def withImages (dir : String) (doc : Document.Entries) : Document.Entries :=
  match doc.lookup "directories" with
  | none => Document.put "directories" (.table [("images", .text dir)]) doc
  | some (.table es) =>
    if (es.lookup "images").isSome then doc
    else Document.put "directories" (.table (Document.put "images" (.text dir) es)) doc
  | some _ => doc

/-- The images directory of a session. Settings that are told of none have it too. -/
def imagesOf (host : Host) : Path :=
  (Path.ofLocation host.here).join ⟨.relative, ["images"]⟩

def settingsOf (host : Host) (doc : Document.Entries) : Except SettingsError Settings :=
  Settings.ofDocument host { dataDir := Path.ofLocation host.here }
    (withImages (imagesOf host).text doc)

/-- A session under a configuration document. -/
def start (host : Host) (doc : Document.Entries) : Except SettingsError Session := do
  let settings ← settingsOf host doc
  let images := imagesOf host
  let tree : FileTree := ({} : FileTree).addFolders (images.resolved host.here)
  return {
    application := { host, tree, stores := [(own, {})], bound := some own }
    settings
    images }

end Session

end GalleryCatalog
