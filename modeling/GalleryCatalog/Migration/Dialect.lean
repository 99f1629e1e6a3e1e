import GalleryCatalog.Text.Quoted

/-!
# Dialects

Upserts need a database that can resolve conflicts between rows.
-/

set_option autoImplicit false

namespace GalleryCatalog.Migration

inductive Dialect where
  | postgresql
  | sqlite
  deriving DecidableEq, Repr

def Dialect.name : Dialect → String
  | .postgresql => "postgresql"
  | .sqlite => "sqlite"

structure UnknownDialect where
  name : String
  deriving DecidableEq, Repr

def UnknownDialect.message (e : UnknownDialect) : String :=
  "ON CONFLICT upserts are not supported for dialect " ++ Text.quote e.name

/-- The dialect that upserts are written in. Names are exact. -/
def Dialect.forUpserts (name : String) : Except UnknownDialect Dialect :=
  match [Dialect.postgresql, Dialect.sqlite].find? fun d => d.name = name with
  | some d => .ok d
  | none => .error ⟨name⟩

end GalleryCatalog.Migration
