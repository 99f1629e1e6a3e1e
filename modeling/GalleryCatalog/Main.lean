import GalleryCatalog.CommandLine.Run
import GalleryCatalog.Store.Saved
import Std.Time.DateTime.Timestamp

/-!
# The program

Reads its arguments, the variables of its environment, the metadata file that the
arguments name, the configuration file, the saved store and the files that its image
rows name; carries out one run; removes the page files that the run has removed; and
saves the store.
-/

set_option autoImplicit false

namespace GalleryCatalog

def variableNames : List String :=
  ["HOME", "XDG_DATA_HOME", "DATABASE_URI", "PAGEKEEPER_DATA_DIR", "PAGEKEEPER_CONFIG",
    "PAGEKEEPER_IMAGES_DIR", "PAGEKEEPER_REMOVE_ON_UPDATE"]

def readVariable (name : String) : IO (Option (String × String)) := do
  return (← IO.getEnv name).map fun value => (name, value)

def readHost : IO Host := do
  let bindings ← variableNames.filterMapM readVariable
  let here := (Path.ofString ((← IO.getEnv "PWD").getD "/")).resolved []
  return { env := { bindings }, here }

/-- The universal moment of now, to the second. -/
def readClock : IO Calendar.Moment := do
  let seconds := (← Std.Time.Timestamp.now).toSecondsSinceUnixEpoch.val
  let epoch : Calendar.Moment := ⟨⟨1970, 1, 1⟩, ⟨0, 0, 0, 0⟩, some 0⟩
  return Calendar.Moment.ofInstant (epoch.instant + seconds * 1000000).toNat

def readBytes? (l : Location) : IO (Option ByteArray) := do
  try
    return some (← IO.FS.readBinFile (Path.ofLocation l).text)
  catch _ =>
    return none

/-- Take a file into the tree if it is there. -/
def takeFile (host : Host) (t : FileTree) (path : Path) : IO FileTree := do
  let l := path.resolved host.here
  match ← readBytes? l with
  | some bytes => return t.write l bytes
  | none => return t

/-- The files that the arguments and the environment name. -/
def namedFiles (host : Host) (texts : List String) : List Path :=
  let metadata := match CommandLine.parse texts with
    | .ok (.reconcile _ path _ _) => path.toList
    | _ => []
  let config := do
    Settings.file host (← Settings.storageOr host none) none
  metadata ++ config.toOption.toList

/-- The file of the database, if it has one. -/
def databaseFile? (app : Application) : Option Location :=
  match Action.databaseUri none app with
  | .ok uri _ =>
    match Address.ofUri app.host.here uri with
    | .ok (.file l _) => some l
    | _ => none
  | .error _ _ => none

/-- Take the saved store into the application. A file that is no saved store is taken as
it is. -/
def takeStore (app : Application) (l : Location) : IO Application := do
  let app := { app with tree := app.tree.addFolders l.dropLast }
  match ← readBytes? l with
  | none => return app
  | some bytes =>
    match (String.fromUTF8? bytes).bind Store.ofSaved? with
    | some s => return { app.putStore (.file l) s with tree := app.tree.write l Database.header }
    | none => return { app with tree := app.tree.write l bytes }

/-- The files that image rows name, below the directories of their archives. -/
def pageFiles (images : Path) (s : Store) : List Path :=
  s.images.filterMap fun r =>
    (s.archives.find? fun a => a.id = r.archive).map fun a =>
      (images.join (Path.ofString a.hash)).join (Path.ofString r.filename)

/-- Take the page files of the saved store into the application. -/
def takePageFiles (app : Application) (l : Location) : IO Application := do
  match Settings.load app.host app.tree none none with
  | .ok settings =>
    let paths := pageFiles settings.images (app.storeOf (.file l))
    return { app with tree := ← paths.foldlM (takeFile app.host) app.tree }
  | .error _ => return app

def readApplication (host : Host) (texts : List String) : IO Application := do
  let tree ← (namedFiles host texts).foldlM (takeFile host) (({} : FileTree).addFolders host.here)
  let app : Application := { host, tree }
  match databaseFile? app with
  | some l => takePageFiles (← takeStore app l) l
  | none => return app

/-- Remove the files that a run has taken out of the tree. -/
def removeFiles (before after : FileTree) : IO Unit :=
  (before.files.filter fun entry => ¬ after.isFile entry.1).forM fun entry => do
    try
      IO.FS.removeFile (Path.ofLocation entry.1).text
    catch _ =>
      return

def saveStore (app : Application) : IO Unit := do
  match app.bound with
  | some (.file l) =>
    IO.FS.createDirAll (Path.ofLocation l.dropLast).text
    IO.FS.writeFile (Path.ofLocation l).text (app.storeOf (.file l)).saved
  | _ => return

def Severity.name : Severity → String
  | .info => "INFO"
  | .warning => "WARNING"
  | .error => "ERROR"

def Notice.reason? : Notice → Option String
  | .refused fault => some fault.message
  | .fatal failure => some failure.message
  | _ => none

def showNotice (n : Notice) : IO Unit := do
  IO.eprintln (n.severity.name ++ " " ++ n.message)
  match n.reason? with
  | some reason => IO.eprintln reason
  | none => return

def exitCode : CommandLine.Ending → IO UInt32
  | .done => return 0
  | .status code => return code.toUInt32
  | .broken failure => throw (IO.userError failure.message)

/-- One run of the program. -/
def runProgram (texts : List String) : IO UInt32 := do
  let host ← readHost
  let before ← readApplication host texts
  let (ending, app) := CommandLine.run (← readClock) texts before
  app.notices.forM showNotice
  removeFiles before.tree app.tree
  saveStore app
  exitCode ending

end GalleryCatalog

def main (texts : List String) : IO UInt32 :=
  GalleryCatalog.runProgram texts
