import GalleryCatalog.Document.Value
import GalleryCatalog.Metadata.Mapping
import GalleryCatalog.Storage
import GalleryCatalog.Toml.Document

/-!
# Settings

Settings say where the images are, whether files of replaced pages are removed, and
which alias rules hold. They come from a configuration document, and two variables
of the environment come before it. Every value is checked for its kind, and the
first one of a wrong kind is reported: tables first, then images, removal, source
rules and tag rules.
-/

set_option autoImplicit false

namespace GalleryCatalog

structure Settings where
  images : Path
  removeOnUpdate : Bool := false
  sourceRules : List SourceRule := []
  tagRules : List TagRule := []
  deriving DecidableEq, Repr

/-- The lists of rules in a configuration document. -/
inductive RuleList where
  | sources
  | tags
  deriving DecidableEq, Repr

def RuleList.key : RuleList → String
  | .sources => "source_mapping"
  | .tags => "tag_mapping"

/-- A rule by its list and its position. -/
structure RulePlace where
  list : RuleList
  index : Nat
  deriving DecidableEq, Repr

def RulePlace.text (p : RulePlace) : String :=
  "metadata." ++ p.list.key ++ "[" ++ toString p.index ++ "]"

inductive SettingsError where
  | notTable (name : String)
  | imagesNotText
  | unknownFlag (name text : String)
  | removalNotFlag
  | notRules (list : RuleList)
  | badPattern (rule : RulePlace)
  | badNames (rule : RulePlace)
  | notFlag (rule : RulePlace) (key : String)
  | notText (rule : RulePlace) (key : String)
  | malformed (file : Path)
  | notUtf8
  | tooManyDigits (count : Nat)
  | path (e : PathError)
  | unreadable (file : FileFailure)
  deriving DecidableEq, Repr

def SettingsError.message : SettingsError → String
  | .notTable name => "[" ++ name ++ "] must be a table"
  | .imagesNotText => "directories.images must be a string path"
  | .unknownFlag name text => "Invalid boolean value for " ++ name ++ ": " ++ Text.quote text
  | .removalNotFlag => "image.remove_on_update must be a boolean"
  | .notRules list => "metadata." ++ list.key ++ " must be an array of tables"
  | .badPattern rule => rule.text ++ ".match must be a non-empty string"
  | .badNames rule => rule.text ++ ".match must be a string or an array of strings"
  | .notFlag rule key => rule.text ++ "." ++ key ++ " must be a boolean"
  | .notText rule key => rule.text ++ "." ++ key ++ " must be a string"
  | .malformed file => "Invalid configuration file " ++ file.text
  | .notUtf8 => "not UTF-8"
  | .tooManyDigits count => Text.digitLimitMessage count
  | .path e => e.message
  | .unreadable file => file.message

namespace Settings

open Document (Value Entries)

abbrev Result := Except SettingsError

def ofPath {α : Type} (x : Except PathError α) : Result α :=
  x.mapError .path

/-- A table of the document, empty when it is left out. -/
def table (doc : Entries) (name : String) : Result Entries :=
  match doc.lookup name with
  | none => .ok []
  | some (.table es) => .ok es
  | some _ => .error (.notTable name)

/-- The images directory that is named: the variable, else the document. -/
def namedImages (env : Environment) (directories : Entries) : Result (Option String) :=
  match env.nonEmpty? "PAGEKEEPER_IMAGES_DIR" with
  | some dir => .ok (some dir)
  | none =>
    match directories.lookup "images" with
    | none => .ok none
    | some .missing => .ok none
    | some (.text dir) => .ok (some dir)
    | some _ => .error .imagesNotText

def removalVariable : String := "PAGEKEEPER_REMOVE_ON_UPDATE"

/-- Whether to remove files of replaced pages: the variable, else the document. -/
def removal (env : Environment) (image : Entries) : Result Bool :=
  match env.flag removalVariable with
  | .flag value => .ok value
  | .unknown text => .error (.unknownFlag removalVariable text)
  | .unset =>
    match image.lookup "remove_on_update" with
    | none => .ok false
    | some (.flag value) => .ok value
    | some _ => .error .removalNotFlag

/-- An empty name stands for the images directory of the storage. -/
def imagesPath (host : Host) (storage : Storage) (named : Option String) : Result Path :=
  match named.filter (· ≠ "") with
  | some dir => ofPath (host.expand (Path.ofString dir))
  | none => ofPath (storage.images host)

def asTable : Value → Option Entries
  | .table es => some es
  | _ => none

/-- The entries of a list of rules, each of which must be a table. -/
def ruleEntries (metadata : Entries) (list : RuleList) : Result (List Entries) :=
  match metadata.lookup list.key with
  | none => .ok []
  | some (.array items) =>
    match items.mapM asTable with
    | some rules => .ok rules
    | none => .error (.notRules list)
  | some _ => .error (.notRules list)

def optionalText (rule : RulePlace) (es : Entries) (key : String) : Result (Option String) :=
  match es.lookup key with
  | none => .ok none
  | some .missing => .ok none
  | some (.text s) => .ok (some s)
  | some _ => .error (.notText rule key)

def flagEntry (rule : RulePlace) (es : Entries) (key : String) : Result Bool :=
  match es.lookup key with
  | none => .ok false
  | some (.flag b) => .ok b
  | some _ => .error (.notFlag rule key)

def patternOf (rule : RulePlace) (es : Entries) : Result String :=
  match es.lookup "match" with
  | some (.text s) => if s = "" then .error (.badPattern rule) else .ok s
  | _ => .error (.badPattern rule)

def asText : Value → Option String
  | .text s => some s
  | _ => none

/-- One name, or a list of names. -/
def namesOf (rule : RulePlace) (es : Entries) : Result (List String) :=
  match es.lookup "match" with
  | some (.text s) => .ok [s]
  | some (.array items) =>
    match items.mapM asText with
    | some names => .ok names
    | none => .error (.badNames rule)
  | _ => .error (.badNames rule)

def sourceRule (rule : RulePlace) (es : Entries) : Result SourceRule := do
  let pattern ← patternOf rule es
  let ignoreCase ← flagEntry rule es "ignore_case"
  let name ← optionalText rule es "name"
  return { pattern, ignoreCase, name }

def tagRule (rule : RulePlace) (es : Entries) : Result TagRule := do
  let names ← namesOf rule es
  let ignoreCase ← flagEntry rule es "ignore_case"
  let onlySpace ← optionalText rule es "match_namespace"
  let space ← optionalText rule es "namespace"
  let name ← optionalText rule es "name"
  return { names, ignoreCase, onlySpace, space, name }

/-- Read a list of rules one by one. -/
def rules {ρ : Type} (list : RuleList) (rule : RulePlace → Entries → Result ρ)
    (metadata : Entries) : Result (List ρ) := do
  let entries ← ruleEntries metadata list
  entries.zipIdx.mapM fun p => rule ⟨list, p.2⟩ p.1

/-- Read a configuration document. -/
def ofDocument (host : Host) (storage : Storage) (doc : Entries) : Result Settings := do
  let directories ← table doc "directories"
  let image ← table doc "image"
  let metadata ← table doc "metadata"
  let named ← namedImages host.env directories
  let removeOnUpdate ← removal host.env image
  let images ← imagesPath host storage named
  let sourceRules ← rules .sources sourceRule metadata
  let tagRules ← rules .tags tagRule metadata
  return { images, removeOnUpdate, sourceRules, tagRules }

def ofFault (file : Path) : Toml.Fault → SettingsError
  | .malformed => .malformed file
  | .tooManyDigits count => .tooManyDigits count

/-- Read the text of a configuration file. -/
def entriesOf (file : Path) (bytes : ByteArray) : Result Entries :=
  match String.fromUTF8? bytes with
  | none => .error .notUtf8
  | some text => (Toml.read text).mapError (ofFault file)

/-- The configuration file: a given one, else the one that the environment names, else
the one in the data directory. -/
def file (host : Host) (storage : Storage) : Option Path → Result Path
  | some path => .ok path
  | none =>
    match host.env.nonEmpty? "PAGEKEEPER_CONFIG" with
    | some path => ofPath (host.expand (Path.ofString path))
    | none => ofPath (storage.config host)

/-- The document of a configuration file, empty when there is no such file. -/
def documentAt (host : Host) (t : FileTree) (path : Path) : Result Entries :=
  match t.fileAt host.here path with
  | .error e => .error (.unreadable ⟨e, path⟩)
  | .ok false => .ok []
  | .ok true =>
    match t.read host.here path with
    | .error e => .error (.unreadable ⟨e, path⟩)
    | .ok bytes => entriesOf path bytes

/-- A given storage, else that of the environment. -/
def storageOr (host : Host) : Option Storage → Result Storage
  | some storage => .ok storage
  | none => ofPath (Storage.ofEnvironment host)

/-- Load settings, from a given configuration file and storage or from those of the
environment. -/
def load (host : Host) (t : FileTree) (path : Option Path) (storage : Option Storage) :
    Result Settings := do
  let storage ← storageOr host storage
  let path ← file host storage path
  ofDocument host storage (← documentAt host t path)

end Settings

end GalleryCatalog
