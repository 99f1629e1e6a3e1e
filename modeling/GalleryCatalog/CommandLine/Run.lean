import GalleryCatalog.CommandLine.Command
import GalleryCatalog.Application
import GalleryCatalog.Text.Blank

/-!
# Runs

A run reads its arguments, checks them, and carries out the command. Arguments that
cannot be read or are refused end it before anything is opened; a failure of the
command ends it with another status. A failure of the check itself breaks the run off.
-/

set_option autoImplicit false

namespace GalleryCatalog.CommandLine

inductive Ending where
  | done
  | status (code : Nat)
  /-- A failure that nothing reports. -/
  | broken (failure : Failure)
  deriving DecidableEq, Repr

/-- The value of an option that needs one. -/
def valueOf {α : Type} (option : ValuedOption) : Option α → Except Failure α
  | some a => .ok a
  | none => .error (.noValue option)

/-- Why a command that was read is refused. The title is not looked at. -/
def check (host : Host) (t : FileTree) : Command → Except Failure (Option ArgumentFault)
  | .create hash _ => do
    let hash ← valueOf .hash hash
    return if Text.trim hash = "" then some .blankHash else none
  | .reconcile id metadata _ _ => do
    let id ← valueOf .archive id
    if id < 1 then return some (.badArchive id)
    else
      let metadata ← valueOf .metadata metadata
      match t.fileAt host.here metadata with
      | .ok true => return none
      | .ok false => return some (.noMetadataFile metadata)
      | .error e => throw (.file ⟨e, metadata⟩)

def tell (n : Notice) : Action Unit :=
  modify fun p => { p with notices := p.notices ++ [n] }

def tellEach {α : Type} (notice : α → Notice) : Option α → Action Unit
  | some a => tell (notice a)
  | none => pure ()

/-- An archive can be added only if its title has a value. -/
def addArchive (now : Calendar.Moment) (hash : String) : Option String → Work Archive
  | some title => Service.createArchive now hash title
  | none => Service.inUnit do
    Service.requireFree hash
    throw (.noValue .title)

def perform (now : Calendar.Moment) : Command → Action Unit
  | .create hash title => do
    let hash ← MonadExcept.ofExcept (valueOf .hash hash)
    let archive ← Action.service (addArchive now (Text.trim hash) title)
    tellEach .created archive.id
  | .reconcile archive metadata verbose merge => do
    let id ← MonadExcept.ofExcept (valueOf .archive archive)
    let metadata ← MonadExcept.ofExcept (valueOf .metadata metadata)
    let outcome ← Action.importFile Action.context id metadata merge verbose
    tellEach .sourceCounts outcome.sources
    tellEach .tagCounts outcome.tags
    tellEach .imageCounts outcome.images

/-- Carry out a command and end with its status. -/
def carryOut (now : Calendar.Moment) (command : Command) (p : Application) : Ending × Application :=
  match perform now command p with
  | .ok _ p => (.done, p)
  | .error e p => (.status 1, { p with notices := p.notices ++ [.fatal e] })

def run (now : Calendar.Moment) (texts : List String) (p : Application) : Ending × Application :=
  match parse texts with
  | .error .help => (.status 0, p)
  | .error .usage => (.status 2, p)
  | .ok command =>
    match check p.host p.tree command with
    | .error e => (.broken e, p)
    | .ok (some fault) => (.status 2, { p with notices := p.notices ++ [.refused fault] })
    | .ok none => carryOut now command p

/-- A new application on the files and file databases that an earlier one left. -/
def nextRun (p : Application) : Application :=
  { host := p.host
    tree := p.tree
    stores := p.stores.filter fun entry => entry.1 matches .file _ }

end GalleryCatalog.CommandLine
