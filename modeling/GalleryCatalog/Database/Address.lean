import GalleryCatalog.Database.Driver
import GalleryCatalog.Path
import GalleryCatalog.Text.LowerCase
import GalleryCatalog.Text.Real

/-!
# Addresses of databases

A database lies in memory or in a file. The name in its URL is that of a file, unless it
is left out or stands for memory. When the query asks for it, the name is a reference
of its own with settings of its own behind a question mark, to which all keys
of the query are added that are not options of the connection.
-/

set_option autoImplicit false

namespace GalleryCatalog

/-- How a file is used. -/
structure FileUse where
  creates : Bool := true
  writes : Bool := true
  deriving DecidableEq, Repr

inductive Address where
  | memory
  | file (l : Location) (use : FileUse)
  deriving DecidableEq, Repr

/-- The options of a connection that have a bearing on its address or can be wrong. -/
structure ConnectionOptions where
  isReference : Bool := false
  columnKinds : Int := 0
  isolated : Bool := false
  keptStatements : Int := 0
  deriving DecidableEq, Repr

namespace ConnectionOptions

def keys : List String :=
  ["uri", "timeout", "isolation_level", "detect_types", "check_same_thread",
    "cached_statements"]

def trueWords : List String := ["true", "yes", "on", "y", "t", "1"]

def falseWords : List String := ["false", "no", "off", "n", "f", "0"]

/-- A key that is given more than once is a flag that is set. -/
def flag : List String → Except DatabaseError Bool
  | [] => .ok false
  | [text] =>
    let word := Text.lowerCase (Text.trim text)
    if trueWords.contains word then .ok true
    else if falseWords.contains word then .ok false
    else .error (.notFlag word)
  | _ => .ok true

def real : List String → Except DatabaseError Unit
  | [] => .ok ()
  | [text] => if Text.isReal text then .ok () else .error (.notReal text)
  | _ => .error .repeatedReal

def integer : List String → Except DatabaseError Int
  | [] => .ok 0
  | [text] => (Text.readInteger text).mapError (.notInteger text)
  | _ => .error .repeatedInteger

/-- Read the options one after another. One level of isolation is not looked at. -/
def read (url : DatabaseUrl) : Except DatabaseError ConnectionOptions := do
  let isReference ← flag (url.values "uri")
  real (url.values "timeout")
  let isolated := 2 ≤ (url.values "isolation_level").length
  let columnKinds ← integer (url.values "detect_types")
  let _ ← flag (url.values "check_same_thread")
  let keptStatements ← integer (url.values "cached_statements")
  return { isReference, columnKinds, isolated, keptStatements }

def fits (n : Int) : Bool :=
  -0x80000000 ≤ n && n < 0x80000000

/-- Refuse options that no connection can be made with. -/
def check (options : ConnectionOptions) : Except DatabaseError Unit :=
  if ¬ fits options.columnKinds then .error .integerOutOfRange
  else if options.isolated then .error .unknownIsolation
  else if ¬ fits options.keptStatements then .error .integerOutOfRange
  else .ok ()

end ConnectionOptions

namespace Address

/-- A name of a file. Nothing, and one word, stand for memory. -/
def ofName (here : Location) (use : FileUse) (name : String) : Address :=
  if name = "" ∨ name = ":memory:" then .memory
  else .file ((Path.ofString name).resolved here) use

/-- The text before an escaped zero. -/
def beforeZero : List Char → List Char
  | '%' :: '0' :: '0' :: _ => []
  | c :: cs => c :: beforeZero cs
  | [] => []

def unescaped (cs : List Char) : String :=
  String.ofList (Text.unescapeUrl (beforeZero cs))

/-- The settings behind the name in a reference. Those without a name are passed over. -/
def settingsOf (cs : List Char) : List (String × String) :=
  ((Text.splitAll '&' cs).map fun part =>
    let (name, value) := Text.cutAt '=' part
    (unescaped name, unescaped (value.getD []))).filter fun setting => setting.1 ≠ ""

/-- What the settings of a reference have made of it so far. -/
structure Opening where
  inMemory : Bool := false
  use : FileUse := {}
  fileSystem : Option String := none

def modes : List (String × Opening) := [
  ("ro", { use := ⟨false, false⟩ }), ("rw", { use := ⟨false, true⟩ }), ("rwc", {}),
  ("memory", { inMemory := true })]

def isSet (value : String) : Bool :=
  let digits := value.toList.takeWhile Text.isAsciiDigit
  if digits = [] then ["on", "yes", "true"].contains (String.ofList (value.toList.map Char.toLower))
  else Text.asciiNumber digits % 256 ≠ 0

/-- Apply a setting. The last access mode counts. -/
def Opening.apply (o : Opening) (setting : String × String) : Except DatabaseError Opening :=
  match setting with
  | ("vfs", name) => .ok { o with fileSystem := some name }
  | ("cache", word) =>
    if ["shared", "private"].contains word then .ok o else .error (.unknownMode .cache word)
  | ("mode", word) =>
    match modes.lookup word with
    | some mode => .ok { o with inMemory := mode.inMemory, use := mode.use }
    | none => .error (.unknownMode .access word)
  | _ => .ok o

def fileSystems : List String := ["unix", "unix-none", "unix-dotfile", "unix-excl"]

/-- What stands behind the host of a reference, which can only be this one. -/
def withoutHost : List Char → Except DatabaseError (List Char)
  | '/' :: '/' :: cs =>
    let host := String.ofList (cs.takeWhile (· ≠ '/'))
    if host = "" ∨ host = "localhost" then .ok (cs.dropWhile (· ≠ '/'))
    else .error (.misplacedHost host)
  | cs => .ok cs

/-- The address in a reference, as far as a number sign. -/
def ofReference (here : Location) (cs : List Char) : Except DatabaseError Address := do
  let cs ← withoutHost cs
  let (name, query) := Text.cutAt '?' (cs.takeWhile (· ≠ '#'))
  let settings := settingsOf (query.getD [])
  let o ← settings.foldlM Opening.apply {}
  match o.fileSystem with
  | some "memdb" => return .memory
  | some other => if ¬ fileSystems.contains other then throw (.unknownFileSystem other)
  | none => pure ()
  if o.inMemory then return .memory
  else
    let fixed := settings.any fun setting => setting.1 = "immutable" ∧ isSet setting.2
    match ofName here { o.use with writes := o.use.writes && !fixed } (unescaped name) with
    | .memory => if o.use.writes then return .memory else throw .readOnly
    | .file l use => return .file l use

/-- The text of values: one as it is, several as a list. -/
def valuesText : List String → String
  | [value] => value
  | values => "(" ++ ", ".intercalate (values.map Text.quote) ++ ")"

/-- The name of a database with the settings that the query adds to it. There must be a
name if there are settings. -/
def referenceText (url : DatabaseUrl) : Except DatabaseError (Option String) :=
  let settings := (url.withoutKeys ConnectionOptions.keys).sortedQuery
  let fields := settings.map fun entry => entry.1 ++ "=" ++ valuesText entry.2
  if fields = [] then .ok url.database
  else match url.database with
    | none => .error (.noName true)
    | some name => .ok (some (name ++ "?" ++ "&".intercalate fields))

/-- Users and hosts have no place in the URL of a file. -/
def isMisplaced (url : DatabaseUrl) : Bool :=
  [url.username, url.password, url.host].any (fun part => part.any (· ≠ "")) ||
    url.hostNumber.any (· ≠ 0)

def pluginKeys : List String := ["plugin", "plugins"]

/-- The address of a URL of a database file. -/
def ofUrl (here : Location) (url : DatabaseUrl) : Except DatabaseError Address := do
  if isMisplaced url then throw (.misplacedParts url.text)
  let options ← ConnectionOptions.read url
  if options.isReference then
    let text? ← referenceText url
    options.check
    match text? with
    | none => throw (.noName false)
    | some text =>
      match text.toList with
      | 'f' :: 'i' :: 'l' :: 'e' :: ':' :: cs => ofReference here cs
      | _ => return ofName here {} text
  else
    options.check
    return ofName here {} (url.database.getD "")

def ofUri (here : Location) (uri : String) : Except DatabaseError Address := do
  let url ← DatabaseUrl.read uri
  match url.values "plugin" with
  | name :: _ => throw (.unknownPlugin name)
  | [] => pure ()
  Driver.require url.kind
  ofUrl here (url.withoutKeys pluginKeys)

end Address

end GalleryCatalog
