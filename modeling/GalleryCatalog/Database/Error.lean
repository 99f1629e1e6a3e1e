import GalleryCatalog.Text.Integer

/-!
# Errors of databases

Why no database is opened: its URL cannot be read, nothing can open its kind, an option
has no proper value, or the file holds no database or cannot be used.
-/

set_option autoImplicit false

namespace GalleryCatalog

/-- The settings in the name of a database that have words of their own. -/
inductive OpenSetting where
  | access
  | cache
  deriving DecidableEq, Repr

def OpenSetting.name : OpenSetting → String
  | .access => "access"
  | .cache => "cache"

inductive DatabaseError where
  | unreadableUrl
  | badHostNumber (text : String) (fault : Text.IntegerFault)
  | emptyHostNumber
  | unknownPlugin (name : String)
  /-- The kind has more parts than a dialect and a driver. -/
  | tooManyParts
  | unknownDialect (kind : String)
  | missingDriver (name : String)
  | misplacedParts (url : String)
  | notFlag (text : String)
  | notReal (text : String)
  | notInteger (text : String) (fault : Text.IntegerFault)
  | repeatedReal
  | repeatedInteger
  /-- A name of a file is needed, perhaps to put settings behind it. -/
  | noName (settings : Bool)
  | integerOutOfRange
  | unknownIsolation
  | misplacedHost (host : String)
  | unknownMode (setting : OpenSetting) (word : String)
  | unknownFileSystem (name : String)
  | cannotOpen
  | notDatabase
  | readOnly
  deriving DecidableEq, Repr

def unloadable (group name : String) : String :=
  "Can't load plugin: sqlalchemy." ++ group ++ ":" ++ name

def DatabaseError.message : DatabaseError → String
  | .unreadableUrl => "Could not parse SQLAlchemy URL from given URL string"
  | .badHostNumber text fault => fault.message text
  | .emptyHostNumber => "Port argument must be an integer or None"
  | .unknownPlugin name => unloadable "plugins" name
  | .tooManyParts => "too many values to unpack (expected 2)"
  | .unknownDialect kind => unloadable "dialects" (kind.replace "+" ".")
  | .missingDriver name => "No module named '" ++ name ++ "'"
  | .misplacedParts url =>
    "Invalid SQLite URL: " ++ url ++
      "\nValid SQLite URL forms are:\n sqlite:///:memory: (or, sqlite://)" ++
      "\n sqlite:///relative/path/to/file.db\n sqlite:////absolute/path/to/file.db"
  | .notFlag text => "String is not true/false: " ++ Text.quote text
  | .notReal text => "could not convert string to float: " ++ Text.quote text
  | .notInteger text fault => fault.message text
  | .repeatedReal => "float() argument must be a string or a real number, not 'tuple'"
  | .repeatedInteger =>
    "int() argument must be a string, a bytes-like object or a real number, not 'tuple'"
  | .noName false => "expected str, bytes or os.PathLike object, not NoneType"
  | .noName true => "unsupported operand type(s) for +=: 'NoneType' and 'str'"
  | .integerOutOfRange => "Python int too large to convert to C int"
  | .unknownIsolation =>
    "isolation_level string must be '', 'DEFERRED', 'IMMEDIATE', or 'EXCLUSIVE'"
  | .misplacedHost host => "invalid uri authority: " ++ host
  | .unknownMode setting word => "no such " ++ setting.name ++ " mode: " ++ word
  | .unknownFileSystem name => "no such vfs: " ++ name
  | .cannotOpen => "unable to open database file"
  | .notDatabase => "file is not a database"
  | .readOnly => "attempt to write a readonly database"

end GalleryCatalog
