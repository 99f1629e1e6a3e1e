import GalleryCatalog.Service

/-!
# Applications

An application has its surroundings, files, and databases that hold a store each. It is
bound to one database at a time, which it opens from the environment when a service
is called before that. A unit of work stays with the database to which the application
was bound when it was made.

A database in memory has one connection. A service that is called while a unit of work
is open there sees its work, and commits it or gives it up together with its own. In a
file the service sees what was committed, and cannot write while the unit of work does.
-/

set_option autoImplicit false

namespace GalleryCatalog

/-- A database in use: a file, or one in memory that is counted. -/
inductive Engine where
  | memory (serial : Nat)
  | file (l : Location)
  deriving DecidableEq, Repr

/-- `pending` is the work of a unit of work that is open and did not commit it. `troubles` are
the errors with which the database answers the next work on it. -/
structure Application where
  host : Host := {}
  tree : FileTree := {}
  stores : List (Engine × Store) := []
  bound : Option Engine := none
  pending : Option (Engine × Store) := none
  reported : List String := []
  notices : List Notice := []
  troubles : List (Option StoreError) := []

abbrev Action := EStateM Failure Application

namespace Application

/-- The store of a database. One that was never used has no rows. -/
def storeOf (p : Application) (e : Engine) : Store :=
  (p.stores.lookup e).getD {}

def putStore (p : Application) (e : Engine) (s : Store) : Application :=
  { p with stores := (e, s) :: p.stores.filter fun entry => entry.1 ≠ e }

/-- Whether a file holds the store that was kept in it. -/
def holdsStore (p : Application) (l : Location) : Bool :=
  (p.stores.lookup (.file l)).isSome && Database.isMarked p.tree l

/-- A database in memory that was not used before. -/
def freshMemory (p : Application) : Engine :=
  .memory (p.stores.countP fun entry => entry.1 matches .memory _)

/-- The workspace of a unit of work that belongs to a database. -/
def workspace (p : Application) (e : Engine) (session : Option View) : Workspace where
  unit := .of (p.storeOf e) session
  tree := p.tree
  reported := p.reported
  notices := p.notices
  troubles := p.troubles

/-- The application after work in a workspace. Work that comes later has troubles of its
own. -/
def after (p : Application) (e : Engine) (w : Workspace) : Application :=
  { p.putStore e w.unit.committed with
    tree := w.tree
    reported := w.reported
    notices := w.notices
    troubles := [] }

end Application

namespace Action

/-- Take what may be an error as a failure. -/
def ofExcept {ε α : Type} (cause : ε → Failure) : Except ε α → Action α
  | .ok a => pure a
  | .error e => throw (cause e)

/-- Make the data directory. -/
def makeDataDir (l : Location) : Action Unit := fun p =>
  match FileTree.ensureFolders l p.tree with
  | .ok _ tree => .ok () { p with tree }
  | .error e tree => .error (.file e) { p with tree }

/-- The URI of the database in a storage, whose directory is made. -/
def storageUri (storage : Storage) : Action String := do
  let host := (← get).host
  makeDataDir (← ofExcept .path (storage.location host))
  return Storage.databaseScheme ++ (← ofExcept .path (storage.database host)).text

/-- The URI of the database: the environment names it, or it is in a storage, which may
also come from the environment. -/
def databaseUri (storage : Option Storage) : Action String := do
  let host := (← get).host
  match host.env.nonEmpty? "DATABASE_URI", storage with
  | some uri, _ => return uri
  | none, some storage => storageUri storage
  | none, none => storageUri (← ofExcept .path (Storage.ofEnvironment host))

/-- Make a file a database without rows. -/
def createFile (l : Location) (use : FileUse) : Action Unit := fun p =>
  match Database.create l use p.tree with
  | .ok _ tree => .ok () ({ p with tree }.putStore (.file l) {})
  | .error e tree => .error (.database e) { p with tree }

/-- Open the database at an address. -/
def openAddress : Address → Action Engine
  | .memory => do
    let e := (← get).freshMemory
    modify fun p => p.putStore e {}
    return e
  | .file l use => do
    if ¬ (← get).holdsStore l then createFile l use
    return .file l

/-- Bind the application to a database, which must not have happened yet. -/
def bind (e : Engine) (force : Bool) : Action Unit := do
  if (← get).bound.isSome ∧ ¬ force then throw (.unit (.misuse .alreadyStarted))
  else modify fun p => { p with bound := some e }

/-- The database of the application, opened if there is none yet. -/
def engine : Action Engine := do
  match (← get).bound with
  | some e => return e
  | none =>
    let uri ← databaseUri none
    let address ← ofExcept .database (Address.ofUri (← get).host.here uri)
    let e ← openAddress address
    bind e false
    return e

/-- The database of the application, which must have been opened. -/
def boundEngine : Action Engine := do
  match (← get).bound with
  | some e => return e
  | none => throw (.unit (.misuse .notStarted))

/-- Do work on a database, with no other unit of work on it. -/
def workAlone {α : Type} (e : Engine) (x : Work α) : Action α := fun p =>
  match x (p.workspace e none) with
  | .ok a w => .ok a (p.after e w)
  | .error f w => .error f (p.after e w)

/-- Do work on a database in memory on which other work is pending. -/
def workTogether {α : Type} (e : Engine) (pending : Store) (x : Work α) : Action α := fun p =>
  let p := { p with pending := none }
  match workAlone e x (p.putStore e pending) with
  | .ok a q => .ok a q
  | .error f q => .error f (q.putStore e (p.storeOf e))

/-- Do work on a database file while another unit of work is open on it. -/
def workBeside {α : Type} (e : Engine) (pending : Store) (x : Work α) : Action α := fun p =>
  match workAlone e x p with
  | .ok a q =>
    if pending = p.storeOf e ∨ q.storeOf e = p.storeOf e then .ok a q
    else .error (.unit (.store .locked)) { p with notices := q.notices, troubles := [] }
  | .error f q => .error f q

/-- Do work on a database. -/
def workOn {α : Type} (e : Engine) (x : Work α) : Action α := do
  match (← get).pending with
  | none => workAlone e x
  | some (other, pending) =>
    if other ≠ e then workAlone e x
    else match e with
      | .memory _ => workTogether e pending x
      | .file _ => workBeside e pending x

/-- Call a service. -/
def service {α : Type} (x : Work α) : Action α := do
  workOn (← engine) x

/-- Read a metadata file, for which no database is needed. -/
def readMetadata (path : Path) : Action Metadata := fun p =>
  let read := Payload.load p.reported p.tree p.host.here path
  let p := { p with
    reported := read.reported
    notices := p.notices ++ read.reports.map Notice.unmodeledKeys }
  match read.outcome with
  | .ok m => .ok m p
  | .error e => .error (.payload e) p

/-- The settings that the environment leads to. -/
def settings : Action Settings := do
  let p : Application ← get
  ofExcept .settings (Settings.load p.host p.tree none none)

/-- What services go by under the settings of the environment. -/
def context : Action Service.Context := do
  return { settings := ← settings, here := (← get).host.here }

/-- Reconcile an archive with a metadata file. The file is read first; then the database
is opened, and only then are the settings asked for. -/
def importFile (context : Action Service.Context) (id : Int) (path : Path)
    (merge verbose : Bool) : Action ArchiveOutcome := do
  let m ← readMetadata path
  let e ← engine
  let c ← context
  workOn e (Service.reconcile c id merge verbose m)

end Action

end GalleryCatalog
