/-!
# Outcomes

What a reconciliation has done, in numbers of rows and files. A collection has
changed when rows were added, updated or removed; sources that were skipped and
files that were removed do not count.
-/

set_option autoImplicit false

namespace GalleryCatalog

structure SourceOutcome where
  inserted : Nat := 0
  deleted : Nat := 0
  skipped : Nat := 0
  deriving DecidableEq, Repr

/-- `updated` counts pages whose file name changed. -/
structure ImageOutcome where
  inserted : Nat := 0
  updated : Nat := 0
  deleted : Nat := 0
  removedFiles : Nat := 0
  deriving DecidableEq, Repr

/-- `upserted` counts tags that the look-up did not show. -/
structure TagOutcome where
  upserted : Nat := 0
  inserted : Nat := 0
  deleted : Nat := 0
  deriving DecidableEq, Repr

/-- A collection that the metadata left out has no outcome. -/
structure ArchiveOutcome where
  archive : Int
  sources : Option SourceOutcome := none
  images : Option ImageOutcome := none
  tags : Option TagOutcome := none
  deriving DecidableEq, Repr

def SourceOutcome.changed (o : SourceOutcome) : Bool :=
  o.inserted ≠ 0 ∨ o.deleted ≠ 0

def ImageOutcome.changed (o : ImageOutcome) : Bool :=
  o.inserted ≠ 0 ∨ o.updated ≠ 0 ∨ o.deleted ≠ 0

def TagOutcome.changed (o : TagOutcome) : Bool :=
  o.upserted ≠ 0 ∨ o.inserted ≠ 0 ∨ o.deleted ≠ 0

/-- A list of named counts. -/
def countsText (counts : List (String × Nat)) : String :=
  ", ".intercalate (counts.map fun c => c.1 ++ "=" ++ toString c.2)

def SourceOutcome.text (o : SourceOutcome) : String :=
  "SourceReconcileResult(" ++
    countsText [("inserted", o.inserted), ("deleted", o.deleted), ("skipped", o.skipped)] ++ ")"

def ImageOutcome.text (o : ImageOutcome) : String :=
  "ImageReconcileResult(" ++
    countsText [("inserted", o.inserted), ("updated", o.updated), ("deleted", o.deleted),
      ("removed_files", o.removedFiles)] ++ ")"

def TagOutcome.text (o : TagOutcome) : String :=
  "TagReconcileResult(" ++
    countsText [("upserted_tags", o.upserted), ("inserted", o.inserted),
      ("deleted", o.deleted)] ++ ")"

def outcomeText {α : Type} (text : α → String) : Option α → String
  | some o => text o
  | none => "None"

end GalleryCatalog
