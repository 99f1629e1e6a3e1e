import GalleryCatalog.Database.Error
import GalleryCatalog.Text.Search
import GalleryCatalog.Text.UrlEscape
import GalleryCatalog.Text.WordChar

/-!
# URLs of databases

A URL names the kind of a database, then perhaps a user with a password, a host, a number,
the name of the database and a query. Every part but the kind may be left out. What
cannot be read behind the last part is ignored. Users, passwords and queries hold
escapes.
-/

set_option autoImplicit false

namespace GalleryCatalog

structure DatabaseUrl where
  kind : String
  username : Option String := none
  password : Option String := none
  host : Option String := none
  hostNumber : Option Int := none
  database : Option String := none
  /-- The keys of the query, each with its values. -/
  query : List (String × List String) := []
  deriving DecidableEq, Repr

namespace DatabaseUrl

def isKindChar (c : Char) : Bool :=
  Text.isWordChar c || c == '+'

/-- The text before the last occurrence of a character, and the text behind it. -/
def cutAtLast (sep : Char) (cs : List Char) : Option (List Char × List Char) :=
  match Text.cutAt sep cs.reverse with
  | (_, none) => none
  | (after, some before) => some (before.reverse, after.reverse)

/-- A user, perhaps with a password, and the rest behind an at sign. The name of a user
goes on to the last at sign before a colon or a slash, a password to the first one. -/
def readUser (cs : List Char) : Option String × Option String × List Char :=
  let run := cs.takeWhile fun c => c ≠ ':' ∧ c ≠ '/'
  let user (name : List Char) : Option String := some (String.ofList (Text.unescapeUrl name))
  let withoutPassword :=
    match cutAtLast '@' run with
    | some (name, after) => (user name, none, after ++ cs.drop run.length)
    | none => (none, none, cs)
  match cs.drop run.length with
  | ':' :: later =>
    match Text.cutAt '@' later with
    | (word, some rest) => (user run, user word, rest)
    | (_, none) => withoutPassword
  | _ => withoutPassword

def inHost (c : Char) : Bool :=
  c != '/' && c != '?'

/-- A host of its own kind between square brackets. -/
def readBracketed : List Char → Option (List Char × List Char)
  | '[' :: cs =>
    let run := cs.takeWhile inHost
    match cutAtLast ']' run with
    | some (host, after) =>
      if host = [] then none else some (host, after ++ cs.drop run.length)
    | none => none
  | _ => none

def readHost (cs : List Char) : Option String × List Char :=
  match readBracketed cs with
  | some (host, rest) => (some (String.ofList host), rest)
  | none =>
    let run := cs.takeWhile fun c => inHost c && c != ':'
    (if run = [] then none else some (String.ofList run), cs.drop run.length)

/-- A part behind its mark, as far as it goes. -/
def readPart (mark : Char) (belongs : Char → Bool) (cs : List Char) :
    Option String × List Char :=
  match cs with
  | [] => (none, [])
  | c :: rest =>
    if c = mark then (some (String.ofList (rest.takeWhile belongs)), rest.dropWhile belongs)
    else (none, cs)

def hostNumberOf (text : String) : Except DatabaseError Int :=
  if text = "" then .error .emptyHostNumber
  else (Text.readInteger text).mapError (.badHostNumber text)

/-- Give a key one more value. -/
def addValue (key value : String) : List (String × List String) → List (String × List String)
  | [] => [(key, [value])]
  | entry :: rest =>
    if entry.1 = key then (key, entry.2 ++ [value]) :: rest else entry :: addValue key value rest

/-- A key and its value, which must not be empty. -/
def fieldOf (cs : List Char) : Option (String × String) :=
  match Text.cutAt '=' cs with
  | (_, none) => none
  | (_, some []) => none
  | (key, some value) =>
    some (String.ofList (Text.unescapeForm key), String.ofList (Text.unescapeForm value))

def queryOf (text : String) : List (String × List String) :=
  ((Text.splitAll '&' text.toList).filterMap fieldOf).foldl
    (fun entries field => addValue field.1 field.2 entries) []

def read (s : String) : Except DatabaseError DatabaseUrl := do
  let kind := s.toList.takeWhile isKindChar
  match s.toList.dropWhile isKindChar with
  | ':' :: '/' :: '/' :: rest =>
    if kind = [] then throw .unreadableUrl
    let (username, password, rest) := readUser rest
    let (host, rest) := readHost rest
    let (numberText, rest) := readPart ':' inHost rest
    let (database, rest) := readPart '/' (· != '?') rest
    let (queryText, _) := readPart '?' (· != '\n') rest
    let hostNumber ← numberText.mapM hostNumberOf
    let query := queryOf (queryText.getD "")
    return { kind := String.ofList kind, username, password, host, hostNumber, database, query }
  | _ => throw .unreadableUrl

def values (url : DatabaseUrl) (key : String) : List String :=
  (url.query.lookup key).getD []

def withoutKeys (url : DatabaseUrl) (keys : List String) : DatabaseUrl :=
  { url with query := url.query.filter fun entry => !keys.contains entry.1 }

def sortedQuery (url : DatabaseUrl) : List (String × List String) :=
  url.query.mergeSort fun a b => decide (a.1 ≤ b.1)

def userText (url : DatabaseUrl) : String :=
  match url.username with
  | none => ""
  | some name =>
    Text.escapeUrl [' ', '+'] name ++ (if url.password.isSome then ":***" else "") ++ "@"

def hostText (host : String) : String :=
  if host.toList.contains ':' then "[" ++ host ++ "]" else host

def queryText (url : DatabaseUrl) : String :=
  let fields := url.sortedQuery.flatMap fun entry =>
    entry.2.map fun value => Text.escapeForm entry.1 ++ "=" ++ Text.escapeForm value
  if fields = [] then "" else "?" ++ "&".intercalate fields

/-- A URL as it is shown, without its password. -/
def text (url : DatabaseUrl) : String :=
  url.kind ++ "://" ++ url.userText ++ hostText (url.host.getD "") ++
    (match url.hostNumber with
      | some n => ":" ++ toString n
      | none => "") ++
    (match url.database with
      | some name => "/" ++ name
      | none => "") ++ url.queryText

end DatabaseUrl

end GalleryCatalog
