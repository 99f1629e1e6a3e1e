import Mathlib.Algebra.GroupWithZero.Nat
import Mathlib.Data.Finset.Card
import GalleryCatalog.Proofs.Atomicity
import GalleryCatalog.Proofs.PageNames

/-!
# Exactly the files of replaced pages

When a pass over images returns, the files that are gone are those below the directory of the
archive that can be removed and are named after a page whose stored file name differs from the
incoming one. No such file stays, unless one of them has a path that is too long to look at,
for then none is removed. The count is the number of files that are gone, and what is written
to the store depends on none of this.
-/

set_option autoImplicit false

namespace GalleryCatalog

namespace FileTree

/-- Where there are files. -/
def locations (t : FileTree) : Finset Location :=
  (t.files.map Prod.fst).toFinset

/-- The last names of all files have a length that names can have. -/
def NamesFit (t : FileTree) : Prop :=
  ∀ l ∈ t.locations, (l.getLastD "").utf8ByteSize ≤ nameLimit

/-- All files of some kind are gone, and nothing else has changed. -/
def LosesExactly (t t' : FileTree) (kind : Location → Prop) : Prop :=
  t'.folders = t.folders ∧
    ∀ l, (kind l → t'.content? l = none) ∧ (¬ kind l → t'.content? l = t.content? l)

variable {t t' : FileTree} {l : Location} {kind : Location → Prop}

theorem mem_locations : l ∈ t.locations ↔ t.isFile l = true := by
  simp [locations, isFile, content?, List.lookup_isSome_iff]

theorem remove_locations (t : FileTree) (l : Location) :
    (t.remove l).locations = t.locations.erase l := by
  ext l'
  simp only [Finset.mem_erase, mem_locations, isFile, remove_content?]
  split_ifs with h <;> simp [h]

theorem LosesOnly.locations_subset (h : t.LosesOnly t' kind) : t'.locations ⊆ t.locations := by
  intro l hl
  rw [mem_locations, isFile] at hl ⊢
  rcases h.2 l with hsame | ⟨hgone, -⟩
  · rwa [← hsame]
  · simp [hgone] at hl

theorem LosesExactly.refl (h : ∀ l, ¬ kind l) : t.LosesExactly t kind :=
  ⟨rfl, fun l => ⟨fun hl => absurd hl (h l), fun _ => rfl⟩⟩

theorem LosesExactly.losesOnly (h : t.LosesExactly t' kind) : t.LosesOnly t' kind := by
  refine ⟨h.1, fun l => ?_⟩
  by_cases hl : kind l
  · exact .inr ⟨(h.2 l).1 hl, hl⟩
  · exact .inl ((h.2 l).2 hl)

end FileTree

/-- The length of the text of a path. -/
theorem Path.text_size {p : Path} (h : p.names ≠ []) : p.text.utf8ByteSize + 1 =
    p.root.text.utf8ByteSize + (p.names.map fun name => name.utf8ByteSize + 1).sum := by
  have hnames : ∀ names : List String, names ≠ [] → ("/".intercalate names).utf8ByteSize + 1 =
      (names.map fun name => name.utf8ByteSize + 1).sum := by
    intro names hne
    induction names with
    | nil => exact absurd rfl hne
    | cons name names ih =>
      rcases eq_or_ne names [] with rfl | hrest
      · simp
      · rw [String.intercalate_cons_of_ne_nil hrest, String.utf8ByteSize_append,
          String.utf8ByteSize_append, List.map_cons, List.sum_cons, ← ih hrest]
        have hslash : "/".utf8ByteSize = 1 := by decide
        omega
  rw [text, if_neg fun hp => h hp.2, String.utf8ByteSize_append, Nat.add_assoc, hnames _ h]

namespace PageFile.Directory

variable (d : Directory)

/-! ## Removing files -/

theorem remove_content? (t : FileTree) (l l' : Location) : (d.remove t l).2.content? l' =
    if l' = l ∧ l' ∉ d.locked then none else t.content? l' := by
  by_cases hl : l' = l
  · subst hl
    by_cases hlocked : l' ∈ d.locked
    · simp [remove, hlocked]
    · by_cases hfile : t.isFile l' = true
      · simp [remove, hlocked, hfile, FileTree.remove_content?]
      · have hnone : t.content? l' = none := by simpa [FileTree.isFile] using hfile
        simp [remove, hlocked, hfile, hnone]
  · unfold remove
    split_ifs <;> simp_all [FileTree.remove_content?]

/-- Of a list of files those are gone afterwards that can be removed. -/
theorem removeAll_content? (t : FileTree) (ls : List Location) (l : Location) :
    (d.removeAll t ls).2.content? l =
      if l ∈ ls ∧ l ∉ d.locked then none else t.content? l := by
  induction ls generalizing t with
  | nil => simp [removeAll]
  | cons l' ls ih =>
    have hrest : (d.removeAll t (l' :: ls)).2 = (d.removeAll (d.remove t l').2 ls).2 := rfl
    rw [hrest, ih, remove_content?]
    by_cases hlocked : l ∈ d.locked
    · simp [hlocked]
    · simp only [hlocked, not_false_eq_true, and_true, List.mem_cons]
      split_ifs <;> simp_all

theorem remove_card (t : FileTree) (l : Location) :
    (d.remove t l).2.locations.card + (if (d.remove t l).1 then 1 else 0) =
      t.locations.card := by
  unfold remove
  split
  next h =>
    simp only [FileTree.remove_locations, if_true]
    exact Finset.card_erase_add_one (FileTree.mem_locations.mpr h.1)
  next => rfl

/-- Every file that is counted is one file less. -/
theorem removeAll_card (t : FileTree) (ls : List Location) :
    (d.removeAll t ls).2.locations.card + (d.removeAll t ls).1 = t.locations.card := by
  induction ls generalizing t with
  | nil => rfl
  | cons l ls ih =>
    have hfirst := d.remove_card t l
    have hrest := ih (d.remove t l).2
    simp only [removeAll]
    omega

/-! ## Removing the files of pages -/

theorem mem_files {t : FileTree} {l : Location} :
    l ∈ t.files.map Prod.fst ↔ t.isFile l = true := by
  rw [← FileTree.mem_locations, FileTree.locations, List.mem_toFinset]

/-- For names that files can have, a file belongs to pages by the name of one of them. -/
theorem belongsTo_named {t : FileTree} (hfit : t.NamesFit) {l : Location}
    (hfile : t.isFile l = true) (pages : List Int) : belongsTo pages (l.getLastD "") = true ↔
      ∃ n : Nat, IsNamedAfter n (l.getLastD "") ∧ (n : Int) ∈ pages := by
  simp only [belongsTo_iff, pageOfName_of_fits (hfit l (FileTree.mem_locations.mpr hfile))]

/-- A file below the directory of an archive that can be removed and is named after a page. -/
structure Removable (t : FileTree) (hash : String) (page : Int → Prop) (l : Location) : Prop where
  isFile : t.isFile l = true
  free : l ∉ d.locked
  below : ∃ dir, d.place? t hash = some dir ∧ dir <+: l ∧ l ≠ dir
  named : ∃ n : Nat, IsNamedAfter n (l.getLastD "") ∧ page n

theorem mem_filesBelow_iff {t : FileTree} (hfit : t.NamesFit) {hash : String} (pages : List Int)
    {dir : Location} (hplace : d.place? t hash = some dir) (l : Location) :
    l ∈ (filesBelow t dir pages).map (dir ++ ·) ∧ l ∉ d.locked ↔
      d.Removable t hash (· ∈ pages) l := by
  rw [mem_filesBelow, mem_files]
  constructor
  · rintro ⟨⟨hfile, hbelow, hne, hpage⟩, hfree⟩
    exact ⟨hfile, hfree, ⟨dir, hplace, hbelow, hne⟩, (belongsTo_named hfit hfile pages).mp hpage⟩
  · rintro ⟨hfile, hfree, ⟨dir', hplace', hbelow, hne⟩, hpage⟩
    obtain rfl := Option.some.inj (hplace.symm.trans hplace')
    exact ⟨⟨hfile, hbelow, hne, (belongsTo_named hfit hfile pages).mpr hpage⟩, hfree⟩

/-! ## Looking for the files of pages -/

/-- What lies strictly below the directory of an archive, by its names from there on. -/
def Under (t : FileTree) (hash : String) (names l : Location) : Prop :=
  ∃ dir, d.place? t hash = some dir ∧ l = dir ++ names ∧ names ≠ []

/-- The directories below the one of an archive have paths that are not too long. -/
def FoldersReach (t : FileTree) (hash : String) : Prop :=
  ∀ l ∈ t.folders, ∀ names, d.Under t hash names l →
    (d.pathBelow hash names).text.utf8ByteSize < FileTree.pathLimit

/-- So have the files there that are named after a page. -/
def FilesReach (t : FileTree) (hash : String) (page : Int → Prop) : Prop :=
  ∀ l names, t.isFile l = true → d.Under t hash names l →
    (∃ n : Nat, IsNamedAfter n (l.getLastD "") ∧ page n) →
    (d.pathBelow hash names).text.utf8ByteSize < FileTree.pathLimit

theorem searchable_iff {t : FileTree} (hfit : t.NamesFit) {hash : String} {pages : List Int}
    {dir : Location} (hplace : d.place? t hash = some dir) :
    d.searchable t hash dir pages = true ↔
      d.FoldersReach t hash ∧ d.FilesReach t hash (· ∈ pages) := by
  have hshort (names : Location) : (!tooLong (d.pathBelow hash names)) = true ↔
      (d.pathBelow hash names).text.utf8ByteSize < FileTree.pathLimit := by
    simp [tooLong]
  have hunder {names l : Location} : d.Under t hash names l ↔ l = dir ++ names ∧ names ≠ [] := by
    simp [Under, hplace]
  have hfolder (names : Location) : names ∈ (t.foldersBelow dir).map (·.drop dir.length) ↔
      dir ++ names ∈ t.folders ∧ names ≠ [] := by
    simp only [FileTree.foldersBelow, List.mem_map, List.mem_filter, Bool.and_eq_true,
      List.isPrefixOf_iff_prefix, bne_iff_ne]
    constructor
    · rintro ⟨_, ⟨hfolder, ⟨below, rfl⟩, hne⟩, rfl⟩
      rw [List.drop_left]
      exact ⟨hfolder, by simpa using hne⟩
    · rintro ⟨hfolder, hne⟩
      exact ⟨dir ++ names, ⟨hfolder, List.prefix_append dir names, by simpa using hne⟩,
        List.drop_left⟩
  rw [searchable, List.all_append, Bool.and_eq_true, List.all_eq_true, List.all_eq_true]
  simp only [hshort, hfolder, mem_filesBelow_names, mem_files]
  constructor
  · rintro ⟨hfolders, hfiles⟩
    constructor
    · intro l hl names hbelow
      obtain ⟨rfl, hne⟩ := hunder.mp hbelow
      exact hfolders names ⟨hl, hne⟩
    · intro l names hfile hbelow hpage
      obtain ⟨rfl, hne⟩ := hunder.mp hbelow
      exact hfiles names ⟨hfile, hne, (belongsTo_named hfit hfile pages).mpr hpage⟩
  · rintro ⟨hfolders, hfiles⟩
    constructor
    · rintro names ⟨hl, hne⟩
      exact hfolders _ hl names (hunder.mpr ⟨rfl, hne⟩)
    · rintro names ⟨hfile, hne, hpage⟩
      exact hfiles _ names hfile (hunder.mpr ⟨rfl, hne⟩)
        ((belongsTo_named hfit hfile pages).mp hpage)

/-- What becomes of the files of an archive when those of some pages are to be removed. All
that can be removed are gone if each of them, and each directory, can be looked at. None is
gone if one of the files cannot. -/
structure Removes (hash : String) (page : Int → Prop) (t t' : FileTree) : Prop where
  only : t.LosesOnly t' (d.Removable t hash page)
  all : d.FoldersReach t hash → d.FilesReach t hash page →
    t.LosesExactly t' (d.Removable t hash page)
  none : d.FoldersReach t hash → ¬ d.FilesReach t hash page → t' = t

theorem removes_refl {t : FileTree} {hash : String} {page : Int → Prop}
    (h : ∀ l, ¬ d.Removable t hash page l) : d.Removes hash page t t :=
  ⟨.refl t _, fun _ _ => .refl h, fun _ _ => rfl⟩

theorem removePages_removes {t : FileTree} (hfit : t.NamesFit) (hash : String)
    (pages : List Int) : d.Removes hash (· ∈ pages) t (d.removePages t hash pages).2 := by
  unfold removePages
  split
  next hnone =>
    apply d.removes_refl
    rintro l ⟨-, -, ⟨dir, hplace, -⟩, -⟩
    rw [hnone] at hplace
    cases hplace
  next dir hplace =>
    have hsearched : d.searchable t hash dir pages = true ↔
        d.FoldersReach t hash ∧ d.FilesReach t hash (· ∈ pages) := d.searchable_iff hfit hplace
    rw [d.find_eq hplace]
    split_ifs with hsearchable
    · have hexact : t.LosesExactly (d.removeAll t (((filesBelow t dir pages).mergeSort
          byNames).map (dir ++ ·))).2 (d.Removable t hash (· ∈ pages)) := by
        refine ⟨(d.removeAll_losesOnly t _).1, fun l => ?_⟩
        have hfound := d.mem_filesBelow_iff hfit pages hplace l
        rw [← ((List.mergeSort_perm (filesBelow t dir pages) byNames).map (dir ++ ·)).mem_iff]
          at hfound
        rw [removeAll_content?]
        exact ⟨fun hl => if_pos (hfound.mpr hl), fun hl => if_neg fun h => hl (hfound.mp h)⟩
      exact ⟨hexact.losesOnly, fun _ _ => hexact,
        fun _ hlong => absurd (hsearched.mp hsearchable).2 hlong⟩
    · exact ⟨.refl t _,
        fun hfolders hfiles => absurd (hsearched.mpr ⟨hfolders, hfiles⟩) hsearchable,
        fun _ _ => rfl⟩

theorem removePages_card (t : FileTree) (hash : String) (pages : List Int) :
    (d.removePages t hash pages).2.locations.card + (d.removePages t hash pages).1 =
      t.locations.card := by
  unfold removePages
  split
  · rfl
  · exact d.removeAll_card t _

end PageFile.Directory

/-! ## A pass over images -/

/-- No file name of a page changes: the page is new, it is dropped, or it is stored with the
file name that comes in last. -/
inductive Store.KeepsName (s : Store) (archive : Int) (incoming : List Image) (page : Int) : Prop
  | new (h : ∀ r ∈ s.images, r.archive = archive → r.page ≠ page)
  | dropped (h : ∀ i ∈ incoming, i.page ≠ page)
  | unchanged {i : Image} (hlast : Reconcile.LastFor incoming i) (hpage : i.page = page)
      (h : ∀ r ∈ s.images, r.archive = archive → r.page = page → r.filename = i.filename)

theorem Store.KeepsName.not_outdated {s : Store} {archive page : Int} {incoming : List Image}
    (h : s.KeepsName archive incoming page) : ¬ s.Outdated archive incoming page := by
  rintro ⟨r, hr, ha, hp, j, hj, hjpage, hname⟩
  cases h with
  | new h => exact h r hr ha hp
  | dropped h =>
    obtain ⟨before, after, rfl, -⟩ := hj
    exact h j (by simp) hjpage
  | @unchanged i hlast hpage h =>
    have hsame : some i = some j :=
      (Reconcile.winner?_eq_some.mpr ⟨hlast, hpage⟩).symm.trans
        (Reconcile.winner?_eq_some.mpr ⟨hj, hjpage⟩)
    obtain rfl := Option.some.inj hsame
    exact hname (h r hr ha hp).symm

namespace Reconcile

variable {id : Int} {hash : String} {files : Option PageFile.Directory} {removeOnUpdate : Bool}
  {incoming : List Image} {w u : Workspace} {o : ImageOutcome}

/-- A pass that returns has begun on a live view, with an archive that a column holds. -/
theorem images_eq_ok (h : images id hash files removeOnUpdate incoming w = .ok o u) :
    fits id = true ∧ ∃ s, w.unit.session = some (.live s) ∧
      images id hash files removeOnUpdate incoming (w.on s) = .ok o u.calm := by
  have hcalm := images_compositional Work.unimpeded_compositional Work.onFiles_unimpeded _ _ _ _ _
    _ _ _ h
  obtain ⟨current, v, hlist, -⟩ := Work.bind_eq_ok.mp hcalm
  rcases hsession : w.unit.session with _ | ⟨s | _⟩
  · have hunit : w.calm.unit = .closed w.unit.committed := UnitOfWork.eq_closed hsession
    rw [Work.access, Work.ofDatabase_calm _ rfl, Work.ofUnit, hunit] at hlist
    cases hlist
  · rw [← Workspace.on_of_session hsession] at hlist hcalm
    refine ⟨?_, s, rfl, hcalm⟩
    by_contra hfits
    have herror : Store.listImages id s = .error .integerOutOfRange s :=
      Work.requires_error (by simpa using hfits) _ s
    rw [Repository.images, Work.access_error herror] at hlist
    cases hlist
  · have hunit : w.calm.unit = .opened w.unit.committed .undone := UnitOfWork.eq_opened hsession
    rw [Work.access, Work.ofDatabase_calm _ rfl, Work.ofUnit, hunit] at hlist
    cases hlist

section Removal

variable (files : Option PageFile.Directory) (removeOnUpdate : Bool) (hash : String)
  (replaced : List Image) (t : FileTree)

theorem removal_subset :
    (removal files removeOnUpdate hash replaced t).2.locations ⊆ t.locations := by
  unfold removal
  split
  · split_ifs
    · exact (PageFile.Directory.removePages_losesOnly ..).locations_subset
    · exact Finset.Subset.refl _
  · exact Finset.Subset.refl _

theorem removal_card :
    (removal files removeOnUpdate hash replaced t).2.locations.card +
      (removal files removeOnUpdate hash replaced t).1 = t.locations.card := by
  unfold removal
  split
  · split_ifs
    · exact PageFile.Directory.removePages_card ..
    · rfl
  · rfl

/-- What is counted are the files that are gone. -/
theorem removal_count : (removal files removeOnUpdate hash replaced t).1 =
    (t.locations \ (removal files removeOnUpdate hash replaced t).2.locations).card := by
  have hgone := Finset.card_sdiff_add_card_eq_card
    (removal_subset files removeOnUpdate hash replaced t)
  have hcount := removal_card files removeOnUpdate hash replaced t
  omega

theorem removal_off (h : files = none ∨ removeOnUpdate = false) :
    removal files removeOnUpdate hash replaced t = (0, t) := by
  rcases h with rfl | rfl
  · rfl
  · cases files <;> rfl

variable {t} in
theorem removal_removes (hfit : t.NamesFit) (d : PageFile.Directory) :
    d.Removes hash (· ∈ replaced.map Image.page) t (removal (some d) true hash replaced t).2 := by
  unfold removal
  dsimp only
  split_ifs with hany
  · exact d.removePages_removes hfit hash _
  · obtain rfl : replaced = [] := by simpa using hany
    apply d.removes_refl
    rintro l ⟨-, -, -, n, -, hn⟩
    simp at hn

end Removal

section Ended

variable {s : Store} (hid : fits id = true)
include hid

theorem images_on_removes {d : PageFile.Directory} (hfit : w.tree.NamesFit)
    (h : images id hash (some d) true incoming (w.on s) = .ok o u) :
    d.Removes hash (s.Outdated id incoming) w.tree u.tree := by
  obtain ⟨-, -, hleft⟩ := images_on_eq_ok hid h
  have houtdated : (· ∈ (replacedImages (winners incoming) (s.imagesOf id)).map Image.page) =
      s.Outdated id incoming := funext fun page => propext mem_replacedPages
  rw [hleft, ← houtdated]
  exact removal_removes hash _ hfit d

theorem images_on_counts
    (h : images id hash files removeOnUpdate incoming (w.on s) = .ok o u) :
    o.removedFiles = (w.tree.locations \ u.tree.locations).card := by
  obtain ⟨-, hcounts, hleft⟩ := images_on_eq_ok hid h
  rw [hcounts, hleft]
  exact removal_count files removeOnUpdate hash _ w.tree

theorem images_on_off (hoff : files = none ∨ removeOnUpdate = false)
    (h : images id hash files removeOnUpdate incoming (w.on s) = .ok o u) : u.tree = w.tree := by
  obtain ⟨-, -, hleft⟩ := images_on_eq_ok hid h
  rw [hleft]
  exact congrArg Prod.snd (removal_off files removeOnUpdate hash _ w.tree hoff)

end Ended

/-- When a pass over images returns and files are to be removed, the removable files of the pages
are gone whose stored file name is not the incoming one, and nothing else is gone. That is so as
long as none of them, and no directory, has a path that is too long. If one of the files has,
none of them is gone. As many files are counted as are gone, and a file named after a page that
is new, dropped or unchanged stays. Neither the rows that are written nor the other counts depend
on the files, on what can be removed of them, or on whether they are removed. -/
theorem images_removes_exactly (hfit : w.tree.NamesFit)
    (h : images id hash files removeOnUpdate incoming w = .ok o u) :
    ∃ s, w.unit.session = some (.live s) ∧
      (∀ d, files = some d → removeOnUpdate = true →
        d.Removes hash (s.Outdated id incoming) w.tree u.tree) ∧
      (files = none ∨ removeOnUpdate = false → u.tree = w.tree) ∧
      o.removedFiles = (w.tree.locations \ u.tree.locations).card ∧
      (∀ (l : Location) (n : Nat), PageFile.IsNamedAfter n (l.getLastD "") →
        s.KeepsName id incoming n → u.tree.content? l = w.tree.content? l) ∧
      ∀ hash' files' removeOnUpdate' v, Work.SameUnit v w →
        ∃ o' u', images id hash' files' removeOnUpdate' incoming v = .ok o' u' ∧
          o'.rows = o.rows ∧ Work.SameUnit u' u := by
  obtain ⟨hid, s, hsession, hrun⟩ := images_eq_ok h
  have hremoves (d : PageFile.Directory) (hfiles : files = some d) (hon : removeOnUpdate = true) :
      d.Removes hash (s.Outdated id incoming) w.tree u.tree := by
    subst hfiles hon
    exact images_on_removes (u := u.calm) hid hfit hrun
  have hoff (hfiles : files = none ∨ removeOnUpdate = false) : u.tree = w.tree :=
    images_on_off (u := u.calm) hid hfiles hrun
  refine ⟨s, hsession, hremoves, hoff, images_on_counts (u := u.calm) hid hrun,
    fun l n hname hkeeps => ?_, ?_⟩
  · rcases hfiles : files with _ | d
    · rw [hoff (.inl hfiles)]
    cases hon : removeOnUpdate with
    | false => rw [hoff (.inr hon)]
    | true =>
      rcases (hremoves d hfiles hon).only.2 l with hsame | ⟨-, -, -, -, n', hname', houtdated⟩
      · exact hsame
      · rw [← hname.unique hname'] at houtdated
        exact absurd houtdated hkeeps.not_outdated
  · intro hash' files' removeOnUpdate' v hunit
    obtain ⟨o', u', hrun', hrows, hsame⟩ := (images_agrees_apart id hash hash' files files'
      removeOnUpdate removeOnUpdate' incoming).ok ⟨hunit.1.symm, hunit.2.symm⟩ h
    exact ⟨o', u', hrun', hrows.symm, hsame.1.symm, hsame.2.symm⟩

/-- An archive with two pages. -/
def twoPages : Store where
  archives := [⟨1, "a1", "First", ⟨⟨2024, 1, 1⟩, ⟨0, 0, 0, 0⟩, none⟩⟩]
  images := [⟨1, 1, 7, "7.png", none, none⟩, ⟨2, 1, 3, "3.png", none, none⟩]

/-- The files of these pages. -/
def twoPagesFiles : Workspace where
  unit := .opened {} (.live twoPages)
  tree :=
    { files := [(["images", "a1", "thumbs", "007.jpg.webp"], .empty),
        (["images", "a1", "7.txt"], .empty), (["images", "a1", "3.png"], .empty)]
      folders := [["images"], ["images", "a1"], ["images", "a1", "thumbs"]] }

/-- A note to the seventh page is locked. -/
def noteLocked : PageFile.Directory where
  root := ⟨.slash, ["images"]⟩
  here := []
  locked := [["images", "a1", "7.txt"]]

theorem noteLocked_place :
    noteLocked.place? twoPagesFiles.tree "a1" = some ["images", "a1"] := by
  decide +kernel

/-- The seventh page gets another file name, and its thumbnail goes. -/
theorem renamed_page_removes_exactly : ∃ o u,
    images 1 "a1" (some noteLocked) true [⟨"3.png", 3, none, none⟩, ⟨"7.jpg", 7, none, none⟩]
        twoPagesFiles = .ok o u ∧
      u.tree.content? ["images", "a1", "thumbs", "007.jpg.webp"] = none ∧
      u.tree.content? ["images", "a1", "7.txt"] = some .empty ∧
      u.tree.content? ["images", "a1", "3.png"] = some .empty := by
  obtain ⟨o, u, hrun⟩ : ∃ o u, images 1 "a1" (some noteLocked) true
      [⟨"3.png", 3, none, none⟩, ⟨"7.jpg", 7, none, none⟩] twoPagesFiles = .ok o u :=
    ⟨_, _, Storable.images_on (s := twoPages) (by decide)
      ⟨by decide +kernel, pageRefusal?_stale (by decide) (by decide) _ _⟩
      "a1" (some noteLocked) true twoPagesFiles⟩
  have hfit : twoPagesFiles.tree.NamesFit := by
    unfold FileTree.NamesFit
    decide +kernel
  have hsearchable : noteLocked.searchable twoPagesFiles.tree "a1" ["images", "a1"] [3, 7] = true :=
    by decide +kernel
  obtain ⟨hfolders, hpages⟩ := (noteLocked.searchable_iff hfit noteLocked_place).mp hsearchable
  have hfiles : noteLocked.FilesReach twoPagesFiles.tree "a1"
      (twoPages.Outdated 1 [⟨"3.png", 3, none, none⟩, ⟨"7.jpg", 7, none, none⟩]) := by
    rintro l names hfile hunder ⟨n, hname, r, hr, -, hpage, -⟩
    refine hpages l names hfile hunder ⟨n, hname, ?_⟩
    rcases List.mem_pair.mp hr with rfl | rfl <;> simp [← hpage]
  obtain ⟨s, hsession, hremoves, -, -, hkept, -⟩ := images_removes_exactly hfit hrun
  obtain rfl : twoPages = s := by simpa [twoPagesFiles] using hsession
  have hgone := ((hremoves _ rfl rfl).all hfolders hfiles).2
  refine ⟨o, u, hrun, (hgone _).1 ⟨by decide, by decide, ⟨["images", "a1"], ?_⟩, 7, ?_, ?_⟩,
    (hgone _).2 fun h => h.free (by decide), ?_⟩
  · exact ⟨noteLocked_place, ⟨["thumbs", "007.jpg.webp"], rfl⟩, by decide⟩
  · exact ⟨2, "jpg.webp".toList, by decide +kernel⟩
  · exact ⟨⟨1, 1, 7, "7.png", none, none⟩, by simp [twoPages], rfl, rfl, ⟨"7.jpg", 7, none, none⟩,
      ⟨[⟨"3.png", 3, none, none⟩], [], rfl, by simp⟩, rfl, by decide⟩
  · refine hkept _ 3 ⟨0, "png".toList, by decide +kernel⟩
      (.unchanged (i := ⟨"3.png", 3, none, none⟩)
        ⟨[], [⟨"7.jpg", 7, none, none⟩], rfl, by decide⟩ rfl ?_)
    decide

/-! ## A path that is too long -/

/-- A directory name of two hundred letters. -/
def longName : String :=
  String.ofList (List.replicate 200 'd')

theorem longName_size : longName.utf8ByteSize = 200 := by
  decide +kernel

/-- An archive with one page. -/
def onePage : Store where
  archives := [⟨1, "h", "Deep", ⟨⟨2024, 1, 1⟩, ⟨0, 0, 0, 0⟩, none⟩⟩]
  images := [⟨1, 1, 1, "1.png", none, none⟩]

/-- Two files of this page: one in the directory of the archive, and one in the last of twenty
directories below it, one in the other. Each name is short enough, and so is the path of each
directory. -/
def nestedFiles : Workspace where
  unit := .opened {} (.live onePage)
  tree :=
    { files := [(["images", "h", "1.png"], .empty),
        (["images", "h"] ++ (List.replicate 20 longName ++ ["1." ++ longName]), .empty)]
      folders := ["images"] :: (List.range 21).map fun n =>
        ["images", "h"] ++ List.replicate n longName }

def imagesAtTop : PageFile.Directory where
  root := ⟨.slash, ["images"]⟩
  here := []

theorem imagesAtTop_place :
    imagesAtTop.place? nestedFiles.tree "h" = some ["images", "h"] := by
  decide +kernel

theorem imagesAtTop_size (names : Location) :
    (imagesAtTop.pathBelow "h" names).text.utf8ByteSize =
      9 + (names.map fun name => name.utf8ByteSize + 1).sum := by
  have harchive : imagesAtTop.archiveDirectory "h" = ⟨.slash, ["images", "h"]⟩ := by
    decide +kernel
  have hsize := Path.text_size (p := ⟨.slash, ["images", "h"] ++ names⟩) (by simp)
  have hslash : PathRoot.slash.text.utf8ByteSize = 1 := by decide
  have himages : "images".utf8ByteSize = 6 := by decide
  have hh : "h".utf8ByteSize = 1 := by decide
  rw [PageFile.Directory.pathBelow, harchive, Path.join, if_pos rfl]
  simp only [List.cons_append, List.nil_append, List.map_cons, List.sum_cons, hslash, himages,
    hh] at hsize ⊢
  omega

theorem nestedFiles_namesFit : nestedFiles.tree.NamesFit := by
  unfold FileTree.NamesFit
  decide +kernel

theorem nestedFiles_foldersReach : imagesAtTop.FoldersReach nestedFiles.tree "h" := by
  rintro l hl names ⟨dir, hplace, rfl, hne⟩
  obtain rfl := Option.some.inj (imagesAtTop_place.symm.trans hplace)
  obtain ⟨n, hn, rfl⟩ : ∃ n < 21, List.replicate n longName = names := by
    simpa [nestedFiles] using hl
  rw [imagesAtTop_size, List.map_replicate, List.sum_replicate_nat, longName_size]
  unfold FileTree.pathLimit
  omega

theorem onePage_outdated : onePage.Outdated 1 [⟨"1.jpg", 1, none, none⟩] 1 :=
  ⟨⟨1, 1, 1, "1.png", none, none⟩, by simp [onePage], rfl, rfl, ⟨"1.jpg", 1, none, none⟩,
    ⟨[], [], rfl, by simp⟩, rfl, by decide⟩

theorem nestedFiles_not_filesReach :
    ¬ imagesAtTop.FilesReach nestedFiles.tree "h"
      (onePage.Outdated 1 [⟨"1.jpg", 1, none, none⟩]) := by
  intro hreach
  have hlast : (["images", "h"] ++ (List.replicate 20 longName ++ ["1." ++ longName])).getLastD ""
      = "1." ++ longName := by
    rw [← List.append_assoc, List.getLastD_eq_getLast?, List.getLast?_concat]
    rfl
  have hnamed : PageFile.IsNamedAfter 1 ("1." ++ longName) := by
    refine ⟨0, longName.toList, ?_⟩
    have hone : "1.".toList = Text.zeroPadded 0 1 ++ ['.'] := by decide
    rw [String.toList_append, hone, List.append_assoc, List.singleton_append]
  rw [← hlast] at hnamed
  have hshort := hreach _ (List.replicate 20 longName ++ ["1." ++ longName])
    (PageFile.Directory.mem_files.mp (by simp [nestedFiles]))
    ⟨_, imagesAtTop_place, rfl, by simp⟩ ⟨1, hnamed, onePage_outdated⟩
  have hone : "1.".utf8ByteSize = 2 := by decide
  simp only [imagesAtTop_size, List.map_append, List.sum_append, List.map_replicate,
    List.sum_replicate_nat, List.map_cons, List.map_nil, List.sum_cons, List.sum_nil,
    String.utf8ByteSize_append, longName_size, hone, FileTree.pathLimit] at hshort
  omega

/-- One file with too long a path keeps the other file of its page as well. -/
theorem long_path_keeps_all :
    let incoming : List Image := [⟨"1.jpg", 1, none, none⟩]
    ∃ o u, images 1 "h" (some imagesAtTop) true incoming nestedFiles = .ok o u ∧
      nestedFiles.unit.session = some (.live onePage) ∧ nestedFiles.tree.NamesFit ∧
      imagesAtTop.Removable nestedFiles.tree "h" (onePage.Outdated 1 incoming)
        ["images", "h", "1.png"] ∧
      u.tree.isFile ["images", "h", "1.png"] = true ∧ o.removedFiles = 0 := by
  intro incoming
  have hstorable : Storable 1 incoming onePage :=
    ⟨by decide +kernel, pageRefusal?_stale (by decide) (by decide) _ _⟩
  have hrun := hstorable.images_on (by decide) "h" (some imagesAtTop) true nestedFiles
  have hkept := (images_on_removes (by decide) nestedFiles_namesFit hrun).none
    nestedFiles_foldersReach nestedFiles_not_filesReach
  have hcount := images_on_counts (by decide) hrun
  rw [hkept, Finset.sdiff_self, Finset.card_empty] at hcount
  refine ⟨_, _, hrun, rfl, nestedFiles_namesFit, ⟨by decide +kernel, by decide, ?_, 1, ?_,
    onePage_outdated⟩, ?_, hcount⟩
  · exact ⟨_, imagesAtTop_place, ⟨["1.png"], rfl⟩, by decide⟩
  · exact ⟨0, "png".toList, by decide +kernel⟩
  · rw [hkept]
    decide +kernel

end Reconcile

end GalleryCatalog
