import Mathlib.Data.List.Basic
import Mathlib.Tactic.SplitIfs
import GalleryCatalog.PageFile

/-!
# Removed page files

Removing the files of some pages takes away files and does nothing else. A file that is
gone afterwards lay below the directory of the archive and was named after one of the
pages. One that cannot be removed stays.
-/

set_option autoImplicit false

namespace GalleryCatalog

/-- A filter on keys keeps or hides what is looked up. -/
theorem lookup_filter_key {κ β : Type} [BEq κ] [LawfulBEq κ] (keep : κ → Bool) (k : κ)
    (entries : List (κ × β)) :
    (entries.filter fun entry => keep entry.1).lookup k =
      if keep k then entries.lookup k else none := by
  induction entries with
  | nil => simp
  | cons entry entries ih =>
    rcases entry with ⟨k', b⟩
    by_cases hk : k = k'
    · subst hk
      by_cases hkeep : keep k = true <;> simp [hkeep, ih]
    · have hne : (k == k') = false := beq_eq_false_iff_ne.mpr hk
      by_cases hkeep : keep k' = true <;> simp [hkeep, List.lookup_cons, hne, ih]

namespace FileTree

/-- Files of some kind are gone, and nothing else has changed. -/
def LosesOnly (t t' : FileTree) (kind : Location → Prop) : Prop :=
  t'.folders = t.folders ∧
    ∀ l, t'.content? l = t.content? l ∨ t'.content? l = none ∧ kind l

theorem LosesOnly.refl (t : FileTree) (kind : Location → Prop) : t.LosesOnly t kind :=
  ⟨rfl, fun _ => Or.inl rfl⟩

theorem LosesOnly.trans {t₁ t₂ t₃ : FileTree} {kind : Location → Prop}
    (h₁ : t₁.LosesOnly t₂ kind) (h₂ : t₂.LosesOnly t₃ kind) : t₁.LosesOnly t₃ kind := by
  refine ⟨h₂.1.trans h₁.1, fun l => ?_⟩
  rcases h₂.2 l with hsame | hgone
  · rw [hsame]
    exact h₁.2 l
  · exact Or.inr hgone

theorem LosesOnly.mono {t t' : FileTree} {kind kind' : Location → Prop}
    (h : t.LosesOnly t' kind) (hkind : ∀ l, kind l → kind' l) : t.LosesOnly t' kind' :=
  ⟨h.1, fun l => (h.2 l).imp_right fun hgone => ⟨hgone.1, hkind l hgone.2⟩⟩

theorem remove_content? (t : FileTree) (l l' : Location) :
    (t.remove l).content? l' = if l' = l then none else t.content? l' := by
  unfold remove content?
  rw [lookup_filter_key (· != l)]
  by_cases h : l' = l <;> simp [h]

theorem remove_losesOnly (t : FileTree) (l : Location) : t.LosesOnly (t.remove l) (· = l) := by
  refine ⟨rfl, fun l' => ?_⟩
  rw [remove_content?]
  split_ifs with h
  · exact Or.inr ⟨rfl, h⟩
  · exact Or.inl rfl

end FileTree

namespace PageFile.Directory

variable (d : Directory)

theorem remove_losesOnly (t : FileTree) (l : Location) :
    t.LosesOnly (d.remove t l).2 (· = l) := by
  unfold remove
  split_ifs
  · exact t.remove_losesOnly l
  · exact .refl t _

theorem removeAll_losesOnly (t : FileTree) (ls : List Location) :
    t.LosesOnly (d.removeAll t ls).2 (· ∈ ls) := by
  induction ls generalizing t with
  | nil => exact .refl t _
  | cons l ls ih =>
    have hfirst : t.LosesOnly (d.remove t l).2 (· ∈ l :: ls) :=
      (d.remove_losesOnly t l).mono (by simp)
    have hrest : (d.remove t l).2.LosesOnly (d.removeAll (d.remove t l).2 ls).2 (· ∈ l :: ls) :=
      (ih (d.remove t l).2).mono fun _ h => by simp [h]
    exact hfirst.trans hrest

/-- A file below the directory of an archive that is named after a page. -/
def IsPageFile (t : FileTree) (hash : String) (page : Int → Prop) (l : Location) : Prop :=
  ∃ dir n, d.place? t hash = some dir ∧ dir <+: l ∧ l ≠ dir ∧
    pageOfName (l.getLastD "") = .ok (some n) ∧ page n

theorem belongsTo_iff {pages : List Int} {name : String} : belongsTo pages name = true ↔
    ∃ n, pageOfName name = .ok (some n) ∧ (n : Int) ∈ pages := by
  unfold belongsTo
  split
  next n hn => simp [hn]
  next hnone =>
    simp only [Bool.false_eq_true, false_iff]
    rintro ⟨n, hn, -⟩
    exact hnone n hn

theorem mem_filesBelow {t : FileTree} {dir : Location} {pages : List Int} {l : Location} :
    l ∈ (filesBelow t dir pages).map (dir ++ ·) ↔
      l ∈ t.files.map Prod.fst ∧ dir <+: l ∧ l ≠ dir ∧
        belongsTo pages (l.getLastD "") = true := by
  have hlast (below : Location) (h : below ≠ []) :
      (dir ++ below).getLastD "" = below.getLastD "" := by
    simp [List.getLastD_eq_getLast?, List.getLast?_eq_some_getLast h]
  simp only [filesBelow, List.mem_map (f := (dir ++ ·)), List.mem_filter,
    List.mem_map (f := List.drop dir.length), FileTree.below, Bool.and_eq_true,
    List.isPrefixOf_iff_prefix, bne_iff_ne]
  constructor
  · rintro ⟨_, ⟨⟨l, ⟨hfile, ⟨below, rfl⟩, hne⟩, rfl⟩, hname⟩, rfl⟩
    rw [List.drop_left] at hname ⊢
    rw [hlast below (by simpa using hne)]
    exact ⟨hfile, List.prefix_append dir below, Ne.symm hne, hname⟩
  · rintro ⟨hfile, ⟨below, rfl⟩, hne, hname⟩
    rw [hlast below (by simpa using hne)] at hname
    exact ⟨below, ⟨⟨dir ++ below, ⟨hfile, List.prefix_append dir below, Ne.symm hne⟩,
      List.drop_left⟩, hname⟩, rfl⟩

theorem mem_filesBelow_names {t : FileTree} {dir : Location} {pages : List Int}
    {names : Location} : names ∈ filesBelow t dir pages ↔
      dir ++ names ∈ t.files.map Prod.fst ∧ names ≠ [] ∧
        belongsTo pages ((dir ++ names).getLastD "") = true := by
  rw [← List.mem_map_of_injective (List.append_right_injective dir), mem_filesBelow]
  simp

section Find

variable {t : FileTree} {hash : String} {pages : List Int} {dir : Location}
  (hplace : d.place? t hash = some dir)
include hplace

theorem find_eq : d.find t hash pages =
    if d.searchable t hash dir pages then (filesBelow t dir pages).mergeSort byNames else [] := by
  have hlocate : t.locate d.here (d.archiveDirectory hash) = .ok dir := by
    cases h : t.locate d.here (d.archiveDirectory hash) <;>
      simp [place?, h, Except.toOption] at hplace
    rw [hplace]
  rw [find, hlocate]

/-- What is found are the files below the directory whose name belongs to one of the pages, as
long as it can be searched. -/
theorem mem_find {l : Location} : l ∈ (d.find t hash pages).map (dir ++ ·) ↔
    d.searchable t hash dir pages = true ∧ l ∈ t.files.map Prod.fst ∧ dir <+: l ∧ l ≠ dir ∧
      belongsTo pages (l.getLastD "") = true := by
  rw [d.find_eq hplace, ← mem_filesBelow]
  split_ifs with h <;> simp [h]

theorem find_isPageFile {l : Location} (hl : l ∈ (d.find t hash pages).map (dir ++ ·)) :
    d.IsPageFile t hash (· ∈ pages) l := by
  obtain ⟨-, -, hbelow, hne, hname⟩ := (d.mem_find hplace).mp hl
  obtain ⟨n, hpage, hn⟩ := belongsTo_iff.mp hname
  exact ⟨dir, n, hplace, hbelow, hne, hpage, hn⟩

end Find

theorem removePages_losesOnly (t : FileTree) (hash : String) (pages : List Int) :
    t.LosesOnly (d.removePages t hash pages).2 (d.IsPageFile t hash (· ∈ pages)) := by
  unfold removePages
  split
  next => exact .refl t _
  next dir hplace =>
    exact (d.removeAll_losesOnly t _).mono fun l hl => d.find_isPageFile hplace hl

end PageFile.Directory

end GalleryCatalog
