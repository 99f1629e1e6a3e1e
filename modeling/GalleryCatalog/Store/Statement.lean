import GalleryCatalog.Store.Basic

/-!
# Statements

A statement reads or changes the store and may fail. One that fails changes
nothing, except that a batch of links keeps the links that were added before the
failing one. One statement binds a limited number of values, which is looked at
before the values are.
-/

set_option autoImplicit false

namespace GalleryCatalog

inductive Column where
  | archiveId
  | archiveHash
  | archiveTitle
  | sourceName
  deriving DecidableEq, Repr

def Column.text : Column → String
  | .archiveId => "archive.id"
  | .archiveHash => "archive.hash"
  | .archiveTitle => "archive.title"
  | .sourceName => "archive_source.name"

inductive StoreError where
  | integerOutOfRange
  | dateOutOfRange
  /-- A column that must have a value has none. -/
  | absent (column : Column)
  /-- A row with this value is there already. -/
  | taken (column : Column)
  | linked
  /-- The statement has more values to bind than one may have. -/
  | tooManyParameters
  /-- Another unit of work is writing. -/
  | locked
  /-- The work was undone after a failure and has to be given up. -/
  | undone
  /-- The database itself has failed, as when its disk is full. -/
  | failed (message : String)
  deriving DecidableEq, Repr

def StoreError.message : StoreError → String
  | .integerOutOfRange => "Python int too large to convert to SQLite INTEGER"
  | .dateOutOfRange => "date value out of range"
  | .absent column => "NOT NULL constraint failed: " ++ column.text
  | .taken column => "UNIQUE constraint failed: " ++ column.text
  | .linked => "UNIQUE constraint failed: archive_tag.archive_id, archive_tag.tag_id"
  | .tooManyParameters => "too many SQL variables"
  | .locked => "database is locked"
  | .undone => "This transaction has been rolled back due to a previous failure"
  | .failed message => message

abbrev Statement := EStateM StoreError Store

/-- One statement binds at most this many values. -/
def parameterLimit : Nat := 32766

def requireParameters (n : Nat) : Statement Unit :=
  if n ≤ parameterLimit then pure () else throw .tooManyParameters

def requireFits (ns : List Int) : Statement Unit :=
  if ns.all fits then pure () else throw .integerOutOfRange

theorem requireFits_of_all {ns : List Int} (h : ∀ n ∈ ns, fits n = true) (s : Store) :
    requireFits ns s = .ok () s := by
  have : ns.all fits = true := List.all_eq_true.mpr h
  simp [requireFits, this, pure, EStateM.pure]

end GalleryCatalog
