import GalleryCatalog.Database.Address
import GalleryCatalog.FileTree

/-!
# Database files

A file is made when it is not there and its directory is. A file that is there must
hold a database or at most one byte. A database is written with a journal beside it,
whose name is longer than that of the file.
-/

set_option autoImplicit false

namespace GalleryCatalog.Database

/-- The first bytes of every database file. -/
def header : ByteArray :=
  "SQLite format 3\x00".toUTF8

/-- Whether a file starts as a database file does. -/
def isMarked (t : FileTree) (l : Location) : Bool :=
  (t.content? l).any fun bytes => (bytes.extract 0 header.size).data = header.data

/-- The full path of a database file has at most this many bytes with its journal's
ending. -/
def pathLimit : Nat := 512

def journalSuffix : String := "-journal"

def nameSize (l : Location) : Nat :=
  (l.getLastD "").utf8ByteSize

/-- Write the first bytes into an empty file. -/
def start (l : Location) (use : FileUse) : EStateM DatabaseError FileTree Unit := do
  if ¬ use.writes then throw .readOnly
  else if FileTree.nameLimit < nameSize l + journalSuffix.utf8ByteSize then throw .cannotOpen
  else modify fun t => t.write l header

/-- Make an empty file a database. A new file stays when that fails. -/
def create (l : Location) (use : FileUse) : EStateM DatabaseError FileTree Unit := do
  let t ← get
  if pathLimit < (Path.ofLocation l).text.utf8ByteSize + journalSuffix.utf8ByteSize then
    throw .cannotOpen
  else match t.content? l with
    | some bytes => if 1 < bytes.size then throw .notDatabase else start l use
    | none =>
      if ¬ use.creates ∨ t.isFolder l ∨ ¬ t.isFolder l.dropLast ∨
          FileTree.nameLimit < nameSize l then throw .cannotOpen
      else
        set (t.write l .empty)
        start l use

end GalleryCatalog.Database
