import GalleryCatalog.Failure
import GalleryCatalog.Outcome

/-!
# Notices

What the library tells its user besides results: warnings about metadata, news of
what was done, and failures that end the program.
-/

set_option autoImplicit false

namespace GalleryCatalog

inductive Severity where
  | info
  | warning
  | error
  deriving DecidableEq, Repr

/-- Why arguments that could be read are refused. -/
inductive ArgumentFault where
  | blankHash
  | badArchive (id : Int)
  | noMetadataFile (path : Path)
  deriving DecidableEq, Repr

def ArgumentFault.message : ArgumentFault → String
  | .blankHash => "Archive hash must not be empty"
  | .badArchive id => "Invalid archive id: " ++ toString id
  | .noMetadataFile path => "Metadata file not found: " ++ path.text

inductive Notice where
  | unmodeledKeys (c : Payload.Carrier)
  | namelessSource (archive : Int) (url : Option String)
  | registered (archive : Int) (hash : String)
  | created (archive : Int)
  | reconciling (archive : Int) (metadata : Metadata)
  | finished (outcome : ArchiveOutcome)
  | sourceCounts (outcome : SourceOutcome)
  | tagCounts (outcome : TagOutcome)
  | imageCounts (outcome : ImageOutcome)
  | refused (fault : ArgumentFault)
  | fatal (failure : Failure)
  deriving DecidableEq, Repr

/-- The number of items, or a dash for a collection that is left out. -/
def sizeText {α : Type} : Option (List α) → String
  | some items => toString items.length
  | none => "-"

namespace Notice

def severity : Notice → Severity
  | .unmodeledKeys _ => .warning
  | .namelessSource _ _ => .warning
  | .refused _ => .error
  | .fatal _ => .error
  | _ => .info

def message : Notice → String
  | .unmodeledKeys c =>
    "Metadata " ++ c.model.title ++ ": unmodeled keys: " ++ ", ".intercalate c.keys
  | .namelessSource archive url =>
    "[ID: " ++ toString archive ++ "] Couldn't get a name for the source with URL " ++
      url.getD "None"
  | .registered archive hash =>
    "Registered archive " ++ toString archive ++ " (" ++ hash ++ ")"
  | .created archive => "Created archive " ++ toString archive
  | .reconciling archive m =>
    "Reconciling archive " ++ toString archive ++ ": sources=" ++ sizeText m.sources ++
      ", images=" ++ sizeText m.images ++ ", tags=" ++ sizeText m.tags
  | .finished o =>
    "Finished archive " ++ toString o.archive ++ ": sources=" ++
      outcomeText SourceOutcome.text o.sources ++ ", images=" ++
      outcomeText ImageOutcome.text o.images ++ ", tags=" ++
      outcomeText TagOutcome.text o.tags
  | .sourceCounts o =>
    "Sources: " ++
      countsText [("inserted", o.inserted), ("deleted", o.deleted), ("skipped", o.skipped)]
  | .tagCounts o =>
    "Tags: " ++
      countsText [("upserted", o.upserted), ("inserted", o.inserted), ("deleted", o.deleted)]
  | .imageCounts o =>
    "Images: " ++
      countsText [("inserted", o.inserted), ("updated", o.updated), ("deleted", o.deleted),
        ("removed files", o.removedFiles)]
  | .refused _ => "CLI validation error"
  | .fatal _ => "Fatal error during reconciliation"

end Notice

end GalleryCatalog
