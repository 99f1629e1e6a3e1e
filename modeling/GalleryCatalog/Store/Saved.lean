import GalleryCatalog.Calendar.Written
import GalleryCatalog.Json.Printer
import GalleryCatalog.Json.Reader
import GalleryCatalog.Store.Basic

/-!
# Saved stores

A store is saved as one object with a list of rows for each table. A row is the list
of its columns in order.
-/

set_option autoImplicit false

namespace GalleryCatalog

open Json (Value)

namespace Saved

def integer (n : Int) : Value := .integer n

def optional {α : Type} (value : α → Value) : Option α → Value
  | some a => value a
  | none => .null

def archive (r : ArchiveRow) : Value :=
  .array [integer r.id, .text r.hash, .text r.title, .text (r.created.text ' ')]

def source (r : SourceRow) : Value :=
  .array [integer r.id, integer r.archive, .text r.name, optional .text r.url]

def image (r : ImageRow) : Value :=
  .array [integer r.id, integer r.archive, integer r.page, .text r.filename,
    optional integer r.width, optional integer r.height]

def tag (r : TagRow) : Value :=
  .array [integer r.id, .text r.tag.space, .text r.tag.name]

def link (r : LinkRow) : Value :=
  .array [integer r.archive, integer r.tag]

def text? : Value → Option (Option String)
  | .null => some none
  | .text s => some (some s)
  | _ => none

def integer? : Value → Option (Option Int)
  | .null => some none
  | .integer n => some (some n)
  | _ => none

def archive? : Value → Option ArchiveRow
  | .array [.integer id, .text hash, .text title, .text created] =>
    (Calendar.Moment.read created).toOption.map fun m => ⟨id, hash, title, m⟩
  | _ => none

def source? : Value → Option SourceRow
  | .array [.integer id, .integer archive, .text name, url] =>
    (text? url).map fun url => ⟨id, archive, name, url⟩
  | _ => none

def image? : Value → Option ImageRow
  | .array [.integer id, .integer archive, .integer page, .text filename, width, height] => do
    return ⟨id, archive, page, filename, ← integer? width, ← integer? height⟩
  | _ => none

def tag? : Value → Option TagRow
  | .array [.integer id, .text space, .text name] => some ⟨id, ⟨space, name⟩⟩
  | _ => none

def link? : Value → Option LinkRow
  | .array [.integer archive, .integer tag] => some ⟨archive, tag⟩
  | _ => none

/-- The rows of a table. -/
def rows {ρ : Type} (row? : Value → Option ρ) (ms : Json.Members) (name : String) :
    Option (List ρ) :=
  match ms.lookup name with
  | some (.array items) => items.mapM row?
  | _ => none

end Saved

/-- The text of a saved store. -/
def Store.saved (s : Store) : String :=
  (Value.object [("archives", .array (s.archives.map Saved.archive)),
    ("sources", .array (s.sources.map Saved.source)),
    ("images", .array (s.images.map Saved.image)),
    ("tags", .array (s.tags.map Saved.tag)),
    ("links", .array (s.links.map Saved.link))]).write

/-- The store that a text was saved from. -/
def Store.ofSaved? (text : String) : Option Store := do
  match ← Json.read? text with
  | .object ms =>
    return {
      archives := ← Saved.rows Saved.archive? ms "archives"
      sources := ← Saved.rows Saved.source? ms "sources"
      images := ← Saved.rows Saved.image? ms "images"
      tags := ← Saved.rows Saved.tag? ms "tags"
      links := ← Saved.rows Saved.link? ms "links" }
  | _ => none

end GalleryCatalog
