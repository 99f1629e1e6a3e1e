import GalleryCatalog.Calendar.Written
import GalleryCatalog.Database.File
import GalleryCatalog.Payload.Reading
import GalleryCatalog.Settings
import GalleryCatalog.UnitOfWork

/-!
# Failures

Everything that can end a call without a result, by its cause.
-/

set_option autoImplicit false

namespace GalleryCatalog

/-- The options of commands that need a value. -/
inductive ValuedOption where
  | hash
  | title
  | archive
  | metadata
  deriving DecidableEq, Repr

/-- The wording for an option that was given as an empty list of values. -/
def ValuedOption.emptyMessage : ValuedOption → String
  | .hash => "'list' object has no attribute 'strip'"
  | .title => "Error binding parameter 2: type 'list' is not supported"
  | .archive => "'<' not supported between instances of 'list' and 'int'"
  | .metadata => "'list' object has no attribute 'is_file'"

inductive Failure where
  | unit (e : UnitError)
  | noArchive (id : Int)
  | hashTaken (hash : String)
  | tagWithoutRow (archive : Int) (tag : Tag)
  | payload (e : Payload.Failure)
  | settings (e : SettingsError)
  | database (e : DatabaseError)
  | path (e : PathError)
  | file (e : FileFailure)
  | moment (fault : Calendar.MomentFault)
  /-- A command needs the value of an option that was given without one. -/
  | noValue (option : ValuedOption)
  /-- A failure of the caller's own. -/
  | ofCaller (message : String)
  deriving DecidableEq, Repr

def UnitError.message : UnitError → String
  | .misuse m => m.message
  | .store e => e.message

def Failure.message : Failure → String
  | .unit e => e.message
  | .noArchive id => "Archive " ++ toString id ++ " does not exist"
  | .hashTaken hash => "An archive with hash " ++ hash ++ " already exists"
  | .tagWithoutRow archive tag =>
    "Archive " ++ toString archive ++ ": no global tag row for " ++ tag.composite ++
      " after lookup and upsert"
  | .payload e => e.message
  | .settings e => e.message
  | .database e => e.message
  | .path e => e.message
  | .file e => e.message
  | .moment fault => fault.message
  | .noValue option => option.emptyMessage
  | .ofCaller message => message

end GalleryCatalog
