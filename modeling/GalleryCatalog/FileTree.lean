import GalleryCatalog.Path
import GalleryCatalog.Text.Quoted

/-!
# File trees

A file tree holds files with their content and directories, by location. The top
directory is always there. A path is followed name by name: every name on the way
must be a directory, and two dots lead back to the one above. There are no links.
No name holds the character zero, and names and whole paths have a greatest length.
-/

set_option autoImplicit false

namespace GalleryCatalog

inductive FileError where
  | notFound
  | exists
  | notDirectory
  | isDirectory
  | nameTooLong
  | zeroInName
  deriving DecidableEq, Repr

/-- The number and the wording that the operating system gives an error. -/
def FileError.wording : FileError → String
  | .notFound => "[Errno 2] No such file or directory"
  | .exists => "[Errno 17] File exists"
  | .notDirectory => "[Errno 20] Not a directory"
  | .isDirectory => "[Errno 21] Is a directory"
  | .nameTooLong => "[Errno 36] File name too long"
  | .zeroInName => "embedded null byte"

/-- An error and the path at which it arose. -/
structure FileFailure where
  error : FileError
  path : Path
  deriving DecidableEq, Repr

def FileFailure.message (f : FileFailure) : String :=
  if f.error = .zeroInName then f.error.wording
  else f.error.wording ++ ": " ++ Text.quote f.path.text

structure FileTree where
  files : List (Location × ByteArray) := []
  folders : List Location := []

namespace FileTree

/-- Names of files and directories have at most this many bytes. -/
def nameLimit : Nat := 255

/-- Paths have fewer bytes than this. -/
def pathLimit : Nat := 4096

def isFolder (t : FileTree) (l : Location) : Bool :=
  l == [] || t.folders.contains l

def content? (t : FileTree) (l : Location) : Option ByteArray :=
  t.files.lookup l

def isFile (t : FileTree) (l : Location) : Bool :=
  (t.content? l).isSome

/-- The next location on the way along a path. -/
def step (t : FileTree) (here : Location) (name : String) : Except FileError Location :=
  if ¬ t.isFolder here then .error (if t.isFile here then .notDirectory else .notFound)
  else if nameLimit < name.utf8ByteSize then .error .nameTooLong
  else .ok (Path.walk here name)

/-- The location that a path leads to, which need not exist itself. -/
def locate (t : FileTree) (here : Location) (p : Path) : Except FileError Location :=
  if p.hasZero then .error .zeroInName
  else if pathLimit ≤ p.text.utf8ByteSize then .error .nameTooLong
  else p.names.foldlM t.step (if p.root = .relative then here else [])

def read (t : FileTree) (here : Location) (p : Path) : Except FileError ByteArray := do
  let l ← t.locate here p
  match t.content? l with
  | some bytes => return bytes
  | none => if t.isFolder l then .error .isDirectory else .error .notFound

/-- Whether a path leads to a file. Only a name that is too long makes this fail. -/
def fileAt (t : FileTree) (here : Location) (p : Path) : Except FileError Bool :=
  match t.locate here p with
  | .ok l => .ok (t.isFile l)
  | .error .nameTooLong => .error .nameTooLong
  | .error _ => .ok false

/-- Whether a path leads to a directory. Only a name that is too long makes this fail. -/
def folderAt (t : FileTree) (here : Location) (p : Path) : Except FileError Bool :=
  match t.locate here p with
  | .ok l => .ok (t.isFolder l)
  | .error .nameTooLong => .error .nameTooLong
  | .error _ => .ok false

/-- All non-empty beginnings of a location. -/
def ancestors : Location → List Location
  | [] => []
  | n :: ns => [n] :: (ancestors ns).map (n :: ·)

def addFolders (t : FileTree) (l : Location) : FileTree :=
  { t with folders := t.folders ++ (ancestors l).filter fun a => !t.folders.contains a }

/-- Write a file, making the directories on the way. -/
def write (t : FileTree) (l : Location) (bytes : ByteArray) : FileTree :=
  let t := t.addFolders l.dropLast
  { t with files := t.files.filter (·.1 != l) ++ [(l, bytes)] }

def remove (t : FileTree) (l : Location) : FileTree :=
  { t with files := t.files.filter (·.1 != l) }

/-- The files at any depth below a directory. -/
def below (t : FileTree) (dir : Location) : List Location :=
  (t.files.map Prod.fst).filter fun l => dir.isPrefixOf l && dir != l

/-- The directories at any depth below a directory. -/
def foldersBelow (t : FileTree) (dir : Location) : List Location :=
  t.folders.filter fun l => dir.isPrefixOf l && dir != l

/-- Make a directory in one that is there. -/
def makeFolder (t : FileTree) (l : Location) : Except FileError FileTree := do
  let l ← t.locate [] (Path.ofLocation l)
  if t.isFile l ∨ t.isFolder l then throw .exists
  else return t.addFolders l

/-- Make a directory unless it is there already. -/
def ensureFolder (l : Location) : EStateM FileFailure FileTree Unit := fun t =>
  match t.makeFolder l with
  | .ok t => .ok () t
  | .error e => if t.isFolder l then .ok () t else .error ⟨e, Path.ofLocation l⟩ t

/-- Make a directory, named from its last name back. Only when one above it is missing
are those above made, and they stay when the directory itself cannot be made. -/
def ensureUpwards : List String → EStateM FileFailure FileTree Unit
  | [] => pure ()
  | name :: above => fun t =>
    match ensureFolder (name :: above).reverse t with
    | .error ⟨.notFound, _⟩ t => (do ensureUpwards above; ensureFolder (name :: above).reverse) t
    | r => r

/-- Make a directory and those above it. One that is there already is no failure. -/
def ensureFolders (l : Location) : EStateM FileFailure FileTree Unit :=
  ensureUpwards l.reverse

end FileTree

end GalleryCatalog
