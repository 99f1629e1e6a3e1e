import GalleryCatalog.Document.Text
import GalleryCatalog.FileTree
import GalleryCatalog.Text.Digit
import GalleryCatalog.Text.LowerCase
import GalleryCatalog.Text.Percent
import GalleryCatalog.Toml.Document

/-!
# Options for migrations

Migrations are configured by a table of a project file, whose values are taken as
text, and by the URI of the database. Options may refer to each other, so every text
is escaped when it becomes one. Their names count in lower case.
-/

set_option autoImplicit false

namespace GalleryCatalog.Migration

open Document (Value Entries)

inductive OptionsError where
  | fault (f : Toml.Fault)
  /-- Where a table of tables should be stands something else. -/
  | notTools (found : Value)
  /-- Where the table of options should be stands something else. -/
  | notOptions (found : Value)
  /-- An option has a number with too many digits to be written. -/
  | tooLong
  | unreadable (file : FileFailure)
  | notUtf8
  /-- A percent sign stands alone in an option. -/
  | lonePercent (text : String) (place : Nat)
  deriving Repr

def noAttribute (found : Value) (wanted : String) : String :=
  "'" ++ found.kind ++ "' object has no attribute '" ++ wanted ++ "'"

def OptionsError.message : OptionsError → String
  | .fault (.tooManyDigits count) => Text.digitLimitMessage count
  | .fault .malformed => "Invalid project file"
  | .notTools found => noAttribute found "get"
  | .notOptions found => noAttribute found "items"
  | .tooLong => Text.digitLimitWording
  | .unreadable file => file.message
  | .notUtf8 => "Undecodable project file"
  | .lonePercent text place =>
    "invalid interpolation syntax in " ++ Text.quote text ++ " at position " ++ toString place

def subTable (name : String) (refuse : Value → OptionsError) (es : Entries) :
    Except OptionsError Entries :=
  match es.lookup name with
  | none => .ok []
  | some (.table sub) => .ok sub
  | some v => .error (refuse v)

/-- The options in a project file. -/
def optionsOf (text : String) : Except OptionsError (List (String × String)) := do
  let doc ← (Toml.read text).mapError .fault
  let tools ← subTable "tool" .notTools doc
  let options ← subTable "alembic" .notOptions tools
  if options.any fun e => e.2.isTooLong then throw .tooLong
  else return options.map fun e => (e.1, e.2.plain)

/-- Options by their names in lower case, of which the first one counts. -/
abbrev Options := List (String × List Char)

/-- Set an option to a text in which no percent sign stands alone. -/
def Options.set (options : Options) (name : String) (text : List Char) :
    Except OptionsError Options :=
  match Text.lonePercent? text with
  | some place => .error (.lonePercent (String.ofList text) place)
  | none => .ok ((Text.lowerCase name, text) :: options)

/-- Set an option to a text that stands for itself. -/
def Options.setText (options : Options) (name text : String) : Except OptionsError Options :=
  options.set name (Text.escapePercent text.toList)

/-- References are followed to options with references so many times. -/
def referenceDepth : Nat := 10

/-- Read text with references to options, which may have references themselves. -/
def Options.resolve (options : Options) : Nat → List Char → Option (List Char)
  | 0, _ => none
  | depth + 1, text =>
    Text.interpolate (fun name => do
      let value ← options.lookup (Text.lowerCase name)
      if '%' ∈ value then options.resolve depth value else some value) text

/-- Read an option with the references in it. -/
def Options.get? (options : Options) (name : String) : Option String := do
  let text ← options.lookup (Text.lowerCase name)
  return String.ofList (← options.resolve referenceDepth text)

def urlOption : String := "sqlalchemy.url"

def scriptsOption : String := "script_location"

def searchOption : String := "prepend_sys_path"

/-- A project in a file tree, and the directory of the migrations that the program brings. -/
structure Project where
  tree : FileTree := {}
  root : Location := []
  migrations : Location := []

namespace Project

/-- The options in the project file, none when there is no such file. -/
def options (p : Project) : Except OptionsError (List (String × String)) :=
  let file := Path.ofLocation (p.root ++ ["pyproject.toml"])
  match p.tree.fileAt [] file with
  | .error e => .error (.unreadable ⟨e, file⟩)
  | .ok false => .ok []
  | .ok true =>
    match p.tree.read [] file with
    | .error e => .error (.unreadable ⟨e, file⟩)
    | .ok bytes =>
      match String.fromUTF8? bytes with
      | none => .error .notUtf8
      | some text => optionsOf text

/-- A path that an option names from the directory of the project, else another one. -/
def pathOr (p : Project) (other : Path) : Option String → Except OptionsError Path
  | none => .ok other
  | some text =>
    let path := Path.ofString text
    if path.root ≠ .relative then .ok path
    else if path.hasZero then .error (.unreadable ⟨.zeroInName, path⟩)
    else .ok (Path.ofLocation (path.resolved p.root))

/-- The directory of the migrations, which is that of the program unless the project has
the one that it names. -/
def scripts (p : Project) (named : Option String) : Except OptionsError Path := do
  let path ← p.pathOr (Path.ofLocation p.migrations) named
  match p.tree.folderAt [] path with
  | .error e => throw (.unreadable ⟨e, path⟩)
  | .ok found => return if found then path else Path.ofLocation p.migrations

/-- Set the options of a project, apart from the URI of the database. -/
def configure (p : Project) (options : Options) : Except OptionsError Options := do
  let own ← p.options
  let scripts ← p.scripts (own.lookup scriptsOption)
  let options ← options.setText scriptsOption scripts.text
  let search ← p.pathOr (Path.ofLocation p.root) (own.lookup searchOption)
  let options ← options.setText searchOption search.text
  (own.filter fun e => e.1 ≠ scriptsOption ∧ e.1 ≠ searchOption).foldlM
    (fun options e => options.setText e.1 e.2) options

/-- The options of a migration, of the database with a URI if one is given. Some options are
there from the start. -/
def migration (p : Project) (start : Options) (uri : Option String) :
    Except OptionsError Options := do
  let options ← p.configure start
  match uri with
  | none => return options
  | some uri => options.setText urlOption uri

end Project

/-- The options of a migration of the database with a URI, without a project file. There are
none if they cannot be set. -/
def optionsFor (uri : String) : Options :=
  ((Project.migration {} [] (some uri)).toOption).getD []

end GalleryCatalog.Migration
