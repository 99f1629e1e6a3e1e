import GalleryCatalog.Metadata.Basic
import GalleryCatalog.Text.CaseFold
import GalleryCatalog.Text.Search

/-!
# Alias rules

A rule changes the name of a source, or the name and name space of a tag. All
rules of a list are tried and the last one that applies decides alone, so later
rules override earlier ones. Normalized lists hold the renamed items once each,
in the order in which they first appear.
-/

set_option autoImplicit false

namespace GalleryCatalog

/-- Rename a source whose name equals the pattern, or a nameless one whose URL
contains it. -/
structure SourceRule where
  pattern : String
  ignoreCase : Bool := false
  name : Option String := none
  deriving DecidableEq, Repr

/-- Rename a tag whose name is one of `names`, in one name space or in all. -/
structure TagRule where
  names : List String := []
  ignoreCase : Bool := false
  onlySpace : Option String := none
  space : Option String := none
  name : Option String := none
  deriving DecidableEq, Repr

/-- The names of a rule as a set: each once, in order. -/
def TagRule.nameSet (r : TagRule) : List String :=
  r.names.eraseDups.mergeSort fun a b => a ≤ b

/-- The form in which texts are compared. -/
def comparable (ignoreCase : Bool) (s : String) : String :=
  if ignoreCase then Text.foldCase s else s

def SourceRule.applies (r : SourceRule) (s : Source) : Bool :=
  let pattern := comparable r.ignoreCase r.pattern
  match s.givenName with
  | some name => comparable r.ignoreCase name == pattern
  | none =>
    match s.url.filter (· ≠ "") with
    | some url => Text.occursIn pattern.toList (comparable r.ignoreCase url).toList
    | none => false

def TagRule.applies (r : TagRule) (t : Tag) : Bool :=
  (match r.onlySpace.filter (· ≠ "") with
    | some space => space == t.space
    | none => true) &&
  (r.names.map (comparable r.ignoreCase)).contains (comparable r.ignoreCase t.name)

/-- The last rule of a list that applies. -/
def lastThat {ρ : Type} (applies : ρ → Bool) (rules : List ρ) : Option ρ :=
  (rules.filter applies).getLast?

def Source.mapped (rules : List SourceRule) (s : Source) : Source :=
  match lastThat (·.applies s) rules with
  | some rule => { s with name := rule.name.or s.name }
  | none => s

/-- An empty name space in a rule leaves that of the tag. -/
def Tag.mapped (rules : List TagRule) (t : Tag) : Tag :=
  match lastThat (·.applies t) rules with
  | some rule =>
    { space := (rule.space.filter (· ≠ "")).getD t.space
      name := rule.name.getD t.name }
  | none => t

def normalizeSources (rules : List SourceRule) (sources : List Source) : List Source :=
  (sources.map (Source.mapped rules)).eraseDups

def normalizeTags (rules : List TagRule) (tags : List Tag) : List Tag :=
  (tags.map fun t => t.normal.mapped rules).eraseDups

theorem lastThat_append {ρ : Type} (p : ρ → Bool) (before after : List ρ) :
    lastThat p (before ++ after) = (lastThat p after).or (lastThat p before) := by
  simp [lastThat, List.getLast?_append]

theorem lastThat_eq_none_iff {ρ : Type} (p : ρ → Bool) (rules : List ρ) :
    lastThat p rules = none ↔ ∀ r ∈ rules, p r = false := by
  simp [lastThat]

end GalleryCatalog
