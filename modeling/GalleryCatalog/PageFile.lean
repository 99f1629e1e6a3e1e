import GalleryCatalog.FileTree
import GalleryCatalog.Text.Digit

/-!
# Page files

The files of an archive lie below the directory that its hash names in the images
directory. A file belongs to the page whose number stands before the first dot of
its name, with any number of zeros in front.
-/

set_option autoImplicit false

namespace GalleryCatalog.PageFile

/-- A page number with too many digits, and their count. -/
structure TooManyDigits where
  count : Nat
  deriving DecidableEq, Repr

/-- The page that a file name belongs to. Names without a dot, or with anything but
digits before it, belong to none. -/
def pageOfName (name : String) : Except TooManyDigits (Option Nat) :=
  match Text.cutAt '.' name.toList with
  | (_, none) => .ok none
  | (head, some _) =>
    if head = [] ∨ ¬ head.all Text.isAsciiDigit then .ok none
    else if Text.digitLimit < head.length then .error ⟨head.length⟩
    else .ok (some (Text.asciiNumber head))

def pageOf (p : Path) : Except TooManyDigits (Option Nat) :=
  pageOfName p.name

def belongsTo (pages : List Int) (name : String) : Bool :=
  match pageOfName name with
  | .ok (some n) => pages.contains (n : Int)
  | _ => false

/-- An images directory in a file tree. Files in `locked` cannot be removed. -/
structure Directory where
  root : Path
  here : Location
  locked : List Location := []
  deriving DecidableEq, Repr

def Directory.archiveDirectory (d : Directory) (hash : String) : Path :=
  d.root.join (Path.ofString hash)

/-- The order of locations, name by name. -/
def byNames : List String → List String → Bool
  | [], _ => true
  | _ :: _, [] => false
  | a :: as, b :: bs => if a = b then byNames as bs else a < b

/-- The files of some pages below a directory, as names from there on. -/
def filesBelow (t : FileTree) (dir : Location) (pages : List Int) : List Location :=
  ((t.below dir).map (·.drop dir.length)).filter fun names =>
    belongsTo pages (names.getLastD "")

/-- The path of something below the directory of an archive. -/
def Directory.pathBelow (d : Directory) (hash : String) (names : Location) : Path :=
  (d.archiveDirectory hash).join ⟨.relative, names⟩

/-- Whether a path is too long for what lies there to be looked at. -/
def tooLong (p : Path) : Bool :=
  FileTree.pathLimit ≤ p.text.utf8ByteSize

/-- Whether each directory on the way can be listed, and each file of the pages looked at. -/
def Directory.searchable (d : Directory) (t : FileTree) (hash : String) (dir : Location)
    (pages : List Int) : Bool :=
  ((t.foldersBelow dir).map (·.drop dir.length) ++ filesBelow t dir pages).all fun names =>
    !tooLong (d.pathBelow hash names)

/-- The files of some pages of an archive as names below its directory, in order.
A directory that cannot be reached has none, and one that cannot be searched to its end
shows none. -/
def Directory.find (d : Directory) (t : FileTree) (hash : String) (pages : List Int) :
    List Location :=
  match t.locate d.here (d.archiveDirectory hash) with
  | .error _ => []
  | .ok dir =>
    if d.searchable t hash dir pages then (filesBelow t dir pages).mergeSort byNames else []

/-- The directory of an archive as a location, when it can be reached. -/
def Directory.place? (d : Directory) (t : FileTree) (hash : String) : Option Location :=
  (t.locate d.here (d.archiveDirectory hash)).toOption

/-- Remove one file and say whether it is gone. -/
def Directory.remove (d : Directory) (t : FileTree) (l : Location) : Bool × FileTree :=
  if t.isFile l ∧ ¬ d.locked.contains l then (true, t.remove l) else (false, t)

/-- Remove files one by one and count those that are gone. -/
def Directory.removeAll (d : Directory) : FileTree → List Location → Nat × FileTree
  | t, [] => (0, t)
  | t, l :: ls =>
    let (gone, t) := d.remove t l
    let (count, t) := d.removeAll t ls
    (count + (if gone then 1 else 0), t)

/-- Remove the files of some pages of an archive. -/
def Directory.removePages (d : Directory) (t : FileTree) (hash : String) (pages : List Int) :
    Nat × FileTree :=
  match d.place? t hash with
  | none => (0, t)
  | some dir => d.removeAll t ((d.find t hash pages).map (dir ++ ·))

end GalleryCatalog.PageFile
