import GalleryCatalog.FileTree
import GalleryCatalog.Json.Reader
import GalleryCatalog.Metadata.Basic
import GalleryCatalog.Payload.Report
import GalleryCatalog.Payload.Schema

/-!
# From documents to metadata

Tags are trimmed. A tag written as one text has its name after the first colon, or
is a name alone; the name must not be blank. A document is read in three steps:
JSON, form, meaning. Keys of no known meaning are reported after the second,
whether or not the document is accepted.
-/

set_option autoImplicit false

namespace GalleryCatalog.Payload

inductive Failure where
  | invalid (violations : List Violation)
  | namelessTag (text : String)
  | unreadable (file : FileFailure)
  | zeroInPath
  deriving DecidableEq, Repr

def Failure.message : Failure → String
  | .invalid _ => "Invalid archive metadata"
  | .namelessTag text => "Tag " ++ Text.quote text ++ " has no name"
  | .unreadable file => "Cannot read metadata file " ++ file.path.text ++ ": " ++ file.message
  | .zeroInPath => FileError.zeroInName.wording

/-- The two sides of the first colon, or an empty name space and all of the text. -/
def splitTag (cs : List Char) : List Char × List Char :=
  match Text.cutAt ':' cs with
  | (space, some name) => (space, name)
  | (_, none) => ([], cs)

def TagEntry.tag : TagEntry → Except Failure Tag
  | .parts space name => .ok ⟨Text.trim space, Text.trim name⟩
  | .composite text =>
    let (space, name) := splitTag text.toList
    if Text.trimEnds Text.isBlank name = [] then .error (.namelessTag text)
    else .ok ⟨Text.trim (String.ofList space), Text.trim (String.ofList name)⟩

def SourceEntry.source (e : SourceEntry) : Source :=
  ⟨e.name, e.url⟩

def ImageEntry.image (e : ImageEntry) : Image :=
  ⟨e.filename, e.page, e.width, e.height⟩

def tagList : Option (List TagEntry) → Except Failure (Option (List Tag))
  | none => .ok none
  | some entries => (entries.mapM TagEntry.tag).map some

def Document.metadata (d : Document) : Except Failure Metadata := do
  let tags ← tagList d.tags
  return {
    sources := d.sources.map (·.map SourceEntry.source)
    images := d.images.map (·.map ImageEntry.image)
    tags := tags }

/-- What came of a document: the reports, the keys reported by then, and the outcome. -/
structure Reading (α : Type) where
  outcome : Except Failure α
  reports : List Carrier
  reported : List String

def notJson : Check Document :=
  .refuse .notJson

def accepted (reported : List String) (check : Check Document) : Reading Document :=
  let (reports, reported) := report reported check.carriers
  ⟨check.outcome.mapError .invalid, reports, reported⟩

/-- Check the form of a document that has been read as JSON, or could not be. -/
def parse (reported : List String) : Option Json.Value → Reading Document
  | some v => accepted reported (document v)
  | none => accepted reported notJson

def Reading.metadata (r : Reading Document) : Reading Metadata :=
  { r with outcome := r.outcome.bind Document.metadata }

def readText (reported : List String) (s : String) : Reading Metadata :=
  (parse reported (Json.read? s)).metadata

def readBytes (reported : List String) (bytes : ByteArray) : Reading Metadata :=
  (parse reported (Json.ofBytes? bytes)).metadata

/-- Read the document in a file. -/
def load (reported : List String) (t : FileTree) (here : Location) (p : Path) :
    Reading Metadata :=
  match t.read here p with
  | .ok bytes => readBytes reported bytes
  | .error .zeroInName => ⟨.error .zeroInPath, [], reported⟩
  | .error e => ⟨.error (.unreadable ⟨e, p⟩), [], reported⟩

end GalleryCatalog.Payload
