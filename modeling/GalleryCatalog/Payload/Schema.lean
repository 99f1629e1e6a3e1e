import GalleryCatalog.Payload.Integer

/-!
# Form of a metadata document

A document is an object with lists of sources, images and tags, each of which may be
absent or null. Entries are checked one by one, and every violation is reported at
its own place. Members of no known meaning are accepted everywhere and carried.
-/

set_option autoImplicit false

namespace GalleryCatalog.Payload

open Json (Value Members)

structure SourceEntry where
  name : Option String
  url : Option String
  deriving DecidableEq, Repr

structure ImageEntry where
  filename : String
  page : Int
  width : Option Int
  height : Option Int
  deriving DecidableEq, Repr

/-- A tag is written as one text or as an object. -/
inductive TagEntry where
  | composite (text : String)
  | parts (space name : String)
  deriving DecidableEq, Repr

structure Document where
  sources : Option (List SourceEntry)
  images : Option (List ImageEntry)
  tags : Option (List TagEntry)
  deriving DecidableEq, Repr

/-- The names of members that a record does not model, in order. -/
def unmodeled (known : List String) (ms : Members) : List String :=
  ((ms.map Prod.fst).filter fun name => !known.contains name).mergeSort fun a b => a ≤ b

def text : Value → Check String
  | .text s => .accept s
  | _ => .refuse .notText

def nonEmptyText : Value → Check String
  | .text s => if s = "" then .refuse .emptyText else .accept s
  | _ => .refuse .notText

def integerThat (holds : Int → Bool) (fault : Fault) (v : Value) : Check Int :=
  match integerOf v with
  | .ok n => if holds n then .accept n else .refuse fault
  | .error f => .refuse f

def pageNumber : Value → Check Int :=
  integerThat (0 ≤ ·) .negative

def dimension : Value → Check Int :=
  integerThat (0 < ·) .notPositive

def nullable {α : Type} (check : Value → Check α) : Value → Check (Option α)
  | .null => .accept none
  | v => (check v).map some

def arrayOf {α : Type} (check : Value → Check α) : Value → Check (List α)
  | .array items => .all (items.zipIdx.map fun p => (check p.1).within (.index p.2))
  | _ => .refuse .notArray

/-- A member that must be there. -/
def required {α : Type} (ms : Members) (name : String) (check : Value → Check α) : Check α :=
  match ms.lookup name with
  | some v => (check v).within (.key name)
  | none => (Check.refuse .missing).within (.key name)

/-- A member that may be absent. -/
def optional {α : Type} (ms : Members) (name : String) (absent : α) (check : Value → Check α) :
    Check α :=
  match ms.lookup name with
  | some v => (check v).within (.key name)
  | none => .accept absent

def sourceKeys : List String := ["name", "url"]

def source : Value → Check SourceEntry
  | .object ms =>
    (((optional ms "name" none (nullable text)).both
      (optional ms "url" none (nullable text))).map fun p => ⟨p.1, p.2⟩).carrying
        .source (unmodeled sourceKeys ms)
  | _ => .refuse .notObject

/-- The page has two spellings. The second counts only where the first is absent. -/
def pageKey (ms : Members) : String :=
  if (ms.lookup "pageNumber").isNone ∧ (ms.lookup "page_number").isSome then "page_number"
  else "pageNumber"

def imageKeys (ms : Members) : List String :=
  ["filename", pageKey ms, "width", "height"]

def image : Value → Check ImageEntry
  | .object ms =>
    ((((required ms "filename" nonEmptyText).both (required ms (pageKey ms) pageNumber)).both
      ((optional ms "width" none (nullable dimension)).both
        (optional ms "height" none (nullable dimension)))).map fun p =>
          ⟨p.1.1, p.1.2, p.2.1, p.2.2⟩).carrying .image (unmodeled (imageKeys ms) ms)
  | _ => .refuse .notObject

def tagKeys : List String := ["name", "namespace"]

def tagObject : Value → Check TagEntry
  | .object ms =>
    (((required ms "name" nonEmptyText).both (optional ms "namespace" "" text)).map fun p =>
      .parts p.2 p.1).carrying .tag (unmodeled tagKeys ms)
  | _ => .refuse .notObject

/-- What is neither a text nor a right object has the violations of both. -/
def tag : Value → Check TagEntry
  | .text s => .accept (.composite s)
  | v =>
    match (tagObject v).outcome with
    | .ok _ => tagObject v
    | .error _ =>
      (((tagObject v).within (.key Model.tag.title)).both
        ((Check.refuse .notText : Check TagEntry).within (.key "str"))).map Prod.fst

def documentKeys : List String := ["sources", "images", "tags"]

def document : Value → Check Document
  | .object ms =>
    (((optional ms "sources" none (nullable (arrayOf source))).both
      ((optional ms "images" none (nullable (arrayOf image))).both
        (optional ms "tags" none (nullable (arrayOf tag))))).map fun p =>
          ⟨p.1, p.2.1, p.2.2⟩).carrying .document (unmodeled documentKeys ms)
  | _ => .refuse .notObject

end GalleryCatalog.Payload
