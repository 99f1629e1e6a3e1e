import GalleryCatalog.Metadata.Mapping
import GalleryCatalog.Workspace

/-!
# Reconciling tags

The tags that an archive is linked to become the normalized incoming ones. Tags
that a look-up does not show are upserted, which gives them a row whether or not
they had one. Rows of tags are never removed.
-/

set_option autoImplicit false

namespace GalleryCatalog.Reconcile

/-- Which rows a look-up and an upsert show. Both show all, unless others work on the
store at the same time or it breaks its promise. -/
structure TagAnswers where
  found : TagRow → Bool := fun _ => true
  upserted : TagRow → Bool := fun _ => true

def lookUp (answers : TagAnswers) (tags : List Tag) : Work (List TagRow) := do
  return (← Work.access (Repository.findTags tags)).filter answers.found

def upsert (answers : TagAnswers) (tags : List Tag) : Work (List TagRow) := do
  return (← Work.access (Repository.upsertTags tags)).filter answers.upserted

def hasTag (rows : List TagRow) (t : Tag) : Bool :=
  rows.any fun r => r.tag = t

/-- The number of the last row of a tag. -/
def idOf? (rows : List TagRow) (t : Tag) : Option Int :=
  ((rows.filter fun r => r.tag = t).getLast?).map TagRow.id

/-- The numbers of tags to be linked. All of them must be known. -/
def idsOf (archive : Int) (known : List TagRow) : List Tag → Work (List Int)
  | [] => pure []
  | t :: ts => do
    match idOf? known t with
    | none => throw (.tagWithoutRow archive t)
    | some id => return id :: (← idsOf archive known ts)

def missingTags (found : List TagRow) (wanted : List Tag) : List Tag :=
  wanted.filter fun t => !hasTag found t

def staleLinks (wanted : List Tag) (links : List TagRow) : List TagRow :=
  links.filter fun l => !wanted.contains l.tag

def freshTags (wanted : List Tag) (links : List TagRow) : List Tag :=
  wanted.filter fun t => !hasTag links t

def tags (answers : TagAnswers) (archive : Int) (rules : List TagRule) (incoming : List Tag) :
    Work TagOutcome := do
  let wanted := normalizeTags rules incoming
  let found ← lookUp answers wanted
  let missing := missingTags found wanted
  let added ← upsert answers missing
  let links ← Work.access (Repository.links archive)
  let stale := staleLinks wanted links
  stale.forM fun l => Work.access (Repository.deleteLink archive l.id)
  let ids ← idsOf archive (found ++ added) (freshTags wanted links)
  Work.access (Repository.addLinks archive ids)
  return { upserted := missing.length, inserted := ids.length, deleted := stale.length }

end GalleryCatalog.Reconcile
