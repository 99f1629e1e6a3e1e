import GalleryCatalog.Environment
import GalleryCatalog.FileTree

/-!
# Storage

All data lies in one directory: the configuration file, the images and, unless the
environment names another, the database. The directory comes from the environment
or is the one for application data in the home directory.
-/

set_option autoImplicit false

namespace GalleryCatalog

inductive PathError where
  | noHome
  | zeroInName
  deriving DecidableEq, Repr

def PathError.message : PathError → String
  | .noHome => "Could not determine home directory."
  | .zeroInName => FileError.zeroInName.wording

/-- The variables of the application and its working directory. -/
structure Host where
  env : Environment := {}
  here : Location := []
  deriving DecidableEq, Repr

namespace Host

/-- A user whose name holds the character zero is not looked for. -/
def expand (host : Host) (p : Path) : Except PathError Path :=
  if p.user?.any fun user => user.toList.contains '\x00' then .error .zeroInName
  else match host.env.expand? p with
    | some p => .ok p
    | none => .error .noHome

/-- The location that a path names once its home directory is known. -/
def resolve (host : Host) (p : Path) : Except PathError Location :=
  if p.hasZero then .error .zeroInName else .ok (p.resolved host.here)

end Host

structure Storage where
  dataDir : Path
  databaseName : String := "pagekeeper.db"
  deriving DecidableEq, Repr

namespace Storage

def applicationName : String := "pagekeeper"

def databaseScheme : String := "sqlite+pysqlite:///"

/-- The directory for application data of all programs. -/
def sharedDir (host : Host) : Except PathError Path :=
  match host.env.nonEmpty? "XDG_DATA_HOME" with
  | some dir => .ok (Path.ofString dir)
  | none => do
    let home ← host.expand ⟨.relative, ["~"]⟩
    return home.join ⟨.relative, [".local", "share"]⟩

def defaultDir (host : Host) : Except PathError Path := do
  let shared ← sharedDir host
  let dir ← host.expand (shared.join ⟨.relative, [applicationName]⟩)
  return Path.ofLocation (← host.resolve dir)

def ofEnvironment (host : Host) : Except PathError Storage :=
  match host.env.nonEmpty? "PAGEKEEPER_DATA_DIR" with
  | some dir => .ok { dataDir := Path.ofString dir }
  | none => return { dataDir := ← defaultDir host }

def location (host : Host) (s : Storage) : Except PathError Location := do
  host.resolve (← host.expand s.dataDir)

/-- A path within the data directory, or a rooted one instead of it. -/
def within (host : Host) (s : Storage) (name : String) : Except PathError Path := do
  return (Path.ofLocation (← s.location host)).join (Path.ofString name)

def config (host : Host) (s : Storage) : Except PathError Path :=
  s.within host "config.toml"

def images (host : Host) (s : Storage) : Except PathError Path :=
  s.within host "images"

def database (host : Host) (s : Storage) : Except PathError Path :=
  s.within host s.databaseName

end Storage

end GalleryCatalog
