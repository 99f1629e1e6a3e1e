import GalleryCatalog.Proofs.CallFrame

/-!
# Where files are removed

The hash of an archive is joined to the images directory as a path, and files are removed
below the place that this path leads to. So archives are kept apart as long as neither place
lies within the other, and the images directory bounds what is removed as long as the place
lies within it. Hashes that are plain names, and not the same, keep both. But the hash may be
any text, and nothing is asked of the place.
-/

set_option autoImplicit false

namespace GalleryCatalog

/-! ## Places -/

theorem FileTree.step_eq_ok {t : FileTree} {here l : Location} {name : String}
    (h : t.step here name = .ok l) : l = Path.walk here name := by
  unfold step at h
  split_ifs at h
  exact (Except.ok.inj h).symm

theorem FileTree.steps_eq_ok {t : FileTree} {here l : Location} {names : List String}
    (h : names.foldlM t.step here = .ok l) : l = names.foldl Path.walk here := by
  induction names generalizing here with
  | nil => exact (Except.ok.inj h).symm
  | cons name names ih =>
    rw [List.foldlM_cons] at h
    cases hstep : t.step here name with
    | error e =>
      rw [hstep] at h
      cases h
    | ok next =>
      rw [hstep] at h
      rw [List.foldl_cons, ← step_eq_ok hstep]
      exact ih h

/-- A path that can be followed leads to the place that it names. -/
theorem FileTree.locate_eq_ok {t : FileTree} {here l : Location} {p : Path}
    (h : t.locate here p = .ok l) : l = p.resolved here := by
  unfold locate at h
  split at h
  · cases h
  · split at h
    · cases h
    · exact steps_eq_ok h

namespace PageFile.Directory

variable (d : Directory)

/-- Where the images directory is. -/
def images : Location :=
  d.root.resolved d.here

/-- The place that the hash of an archive leads to. -/
def location (hash : String) : Location :=
  (d.archiveDirectory hash).resolved d.here

/-- Neither of two archives has its place within that of the other. -/
def Apart (hash hash' : String) : Prop :=
  ¬ d.location hash <+: d.location hash' ∧ ¬ d.location hash' <+: d.location hash

/-- A location that is strictly below the place of an archive. -/
def Below (hash : String) (l : Location) : Prop :=
  d.location hash <+: l ∧ l ≠ d.location hash

variable {d} {hash hash' : String} {l : Location}

theorem place?_location {t : FileTree} {dir : Location} (h : d.place? t hash = some dir) :
    dir = d.location hash := by
  unfold place? at h
  cases hlocate : t.locate d.here (d.archiveDirectory hash) with
  | error e =>
    rw [hlocate] at h
    cases h
  | ok l =>
    rw [hlocate] at h
    exact (Option.some.inj h).symm.trans (FileTree.locate_eq_ok hlocate)

theorem IsPageFile.below {t : FileTree} {page : Int → Prop} (h : d.IsPageFile t hash page l) :
    d.Below hash l := by
  obtain ⟨dir, n, hplace, hunder, hne, -⟩ := h
  rw [place?_location hplace] at hunder hne
  exact ⟨hunder, hne⟩

/-- A file is not below two places that are apart. -/
theorem Apart.not_below (h : d.Apart hash hash') (hl : d.location hash' <+: l) :
    ¬ d.Below hash l := by
  rintro ⟨hunder, -⟩
  rcases List.prefix_or_prefix_of_prefix hunder hl with hin | hin
  · exact h.1 hin
  · exact h.2 hin

end PageFile.Directory

/-! ## Plain names -/

namespace IsPlainName

variable {name name' : String}

theorem location (h : IsPlainName name) (d : PageFile.Directory) :
    d.location name = d.images ++ [name] := by
  unfold PageFile.Directory.location PageFile.Directory.images PageFile.Directory.archiveDirectory
  rw [h.ofString, Path.join, if_pos rfl]
  simp [Path.resolved, Path.walk, h.not_back]

theorem apart (h : IsPlainName name) (h' : IsPlainName name') (hne : name ≠ name')
    (d : PageFile.Directory) : d.Apart name name' := by
  unfold PageFile.Directory.Apart
  rw [h.location, h'.location]
  simp [List.prefix_append_right_inj, hne, Ne.symm hne]

end IsPlainName

/-! ## Jobs and calls -/

open Reconcile

theorem Job.ReachesImages.row {job : Job} {r : Reconciliation} {c : Service.Context}
    {row : ArchiveRow} {images : List Image} {w : Workspace} {s : Store}
    (hw : w.unit = .closed s) (hr : job.reconciliation? = some r)
    (h : job.ReachesImages w c row images) : r.context = c ∧ s.row? r.archive = some row := by
  cases h with
  | sync hrow =>
    obtain rfl := Option.some.inj hr
    obtain ⟨-, hfound, -⟩ := Service.findArchive_entered hw hrow
    exact ⟨rfl, hfound.symm⟩
  | reconcile hm hrow hrun =>
    obtain rfl := Option.some.inj hr
    obtain ⟨-, hfound, -⟩ := Service.findArchive_entered (w := w.told _) hw hrow
    exact ⟨rfl, hfound.symm⟩

/-- A job on an archive that is stored removes nothing but files below the place of the
archive, whether it returns or fails, and whatever errors the database gives. -/
theorem Job.left_losesOnly {job : Job} {r : Reconciliation} (hr : job.reconciliation? = some r)
    {w : Workspace} {s : Store} (hw : w.unit = .closed s) {row : ArchiveRow}
    (hrow : s.row? r.archive = some row) :
    w.tree.LosesOnly (Work.left job.run w).tree (r.context.files.Below row.hash) := by
  cases hrun : job.run w with
  | error f u =>
    rw [Work.left_of_error hrun]
    rcases Job.run_error_tree hw hrun with hsame | ⟨c, row', images, hreached, hloses⟩
    · rw [hsame]
      exact .refl _ _
    · obtain ⟨rfl, hrow'⟩ := hreached.row hw hr
      obtain rfl := Option.some.inj (hrow'.symm.trans hrow)
      exact hloses.mono fun l h => h.below
  | ok o u =>
    have hcalm := job.run_unimpeded w u o hrun
    rw [← Workspace.closedOn_of_closed hw] at hcalm
    rw [Work.left_of_ok hrun]
    obtain ⟨row', hrow', w', v, htree, hu, hdone⟩ := (Reconciliation.returns_of_run hr hcalm).stored
    obtain rfl := Option.some.inj (hrow'.symm.trans hrow)
    rw [← u.calm_tree, hu, hdone.tree, ← htree]
    cases r.metadata.images with
    | none => exact .refl _ _
    | some images =>
      exact (removedFor_losesOnly r.options r.context.files r.archive row'.hash images s
        w'.tree).mono fun l h => h.below

/-- Files are gone for one archive, all of them below its place. So none is gone below a place
that is apart, and none outside the images directory if the place is within. Plain names keep
to both. -/
structure PageFile.Directory.RemovesOwn (d : PageFile.Directory) (hash : String)
    (t t' : FileTree) : Prop where
  below : ∀ l, t'.content? l = t.content? l ∨ t'.content? l = none ∧ d.Below hash l
  apart : ∀ hash', d.Apart hash hash' → ∀ l, d.location hash' <+: l →
    t'.content? l = t.content? l
  within : d.images <+: d.location hash → ∀ l, ¬ d.images <+: l → t'.content? l = t.content? l
  plain : IsPlainName hash → (∀ l, ¬ d.images <+: l → t'.content? l = t.content? l) ∧
    ∀ hash', IsPlainName hash' → hash' ≠ hash → ∀ l, d.location hash' <+: l →
      t'.content? l = t.content? l

theorem PageFile.Directory.removesOwn {d : PageFile.Directory} {hash : String} {t t' : FileTree}
    (h : t.LosesOnly t' (d.Below hash)) : d.RemovesOwn hash t t' := by
  have hapart : ∀ hash', d.Apart hash hash' → ∀ l, d.location hash' <+: l →
      t'.content? l = t.content? l :=
    fun hash' ha l hl => (h.2 l).resolve_right fun hgone => ha.not_below hl hgone.2
  have hwithin : d.images <+: d.location hash → ∀ l, ¬ d.images <+: l →
      t'.content? l = t.content? l :=
    fun hin l hl => (h.2 l).resolve_right fun hgone => hl (hin.trans hgone.2.1)
  refine ⟨h.2, hapart, hwithin, fun hname => ⟨hwithin ?_, fun hash' hname' hne => ?_⟩⟩
  · rw [hname.location]
    exact List.prefix_append ..
  · exact hapart hash' (hname.apart hname' hne.symm d)

/-- A call on an archive that is stored changes no file if it stops while it reads. Otherwise
the files that are gone afterwards lay below the place of the archive, whether the call returns
or fails. -/
theorem Call.removes_own_files {p : Application} {e : Engine} {t : Terms} {c : Call} {id : Int}
    {row : ArchiveRow} (hp : p.Serves e) (hc : c.archive? = some id)
    (hrow : (p.storeOf e).row? id = some row) :
    let tree' := (Work.left (c.perform t) p).tree
    (∃ f q, c.job t p = .error f q ∧ tree' = p.tree) ∨
      ∃ job q r, c.job t p = .ok job q ∧ job.reconciliation? = some r ∧
        r.context.files.RemovesOwn row.hash p.tree tree' := by
  rcases c.perform_ends hp t with ⟨f, q, hjob, hreads, hleft, -⟩ | ⟨job, q, hjob, hreads, hleft, -⟩
  · exact .inl ⟨f, q, hjob, by rw [hleft, hreads.tree]⟩
  · obtain ⟨r, hr, rfl, -⟩ := job_reconciliation hc hjob
    have hloses := Job.left_losesOnly hr (hreads.workspace_unit e) hrow
    have htree : (q.workspace e none).tree = p.tree := hreads.tree
    rw [htree] at hloses
    refine .inr ⟨job, q, r, hjob, hr, PageFile.Directory.removesOwn ?_⟩
    rw [hleft]
    exact hloses

/-! ## Hashes that are no plain names -/

/-- Two archives with plain names, beside one whose hash is empty and one whose hash leads back
from the images directory. -/
def Application.oddHashes : Application where
  tree :=
    { files := [(["images", "b", "1.png"], .empty), (["images", "b", "2.png"], .empty),
        (["images", "c", "1.png"], .empty), (["notes", "3.txt"], .empty)]
      folders := [["images"], ["images", "b"], ["images", "c"], ["notes"]] }
  stores := [(.memory 0,
    { archives := [⟨1, "", "Empty", ⟨⟨2024, 1, 1⟩, ⟨0, 0, 0, 0⟩, none⟩⟩,
        ⟨2, "b", "B", ⟨⟨2024, 1, 1⟩, ⟨0, 0, 0, 0⟩, none⟩⟩,
        ⟨3, "..", "Back", ⟨⟨2024, 1, 1⟩, ⟨0, 0, 0, 0⟩, none⟩⟩,
        ⟨4, "c", "C", ⟨⟨2024, 1, 1⟩, ⟨0, 0, 0, 0⟩, none⟩⟩]
      images := [⟨1, 2, 1, "1.png", none, none⟩, ⟨2, 1, 2, "2.png", none, none⟩,
        ⟨3, 3, 3, "3.png", none, none⟩] })]
  bound := some (.memory 0)

/-- A page comes under another file name. -/
def Call.renamePage (archive page : Int) : Call :=
  .syncImages archive [⟨"new.jpg", page, none, none⟩]

theorem Call.plain_name_keeps_others :
    let p := Application.oddHashes
    let tree' := (Work.left ((renamePage 2 1).perform Terms.removing) p).tree
    tree'.isFile ["images", "b", "1.png"] = false ∧
      tree'.content? ["images", "c", "1.png"] = p.tree.content? ["images", "c", "1.png"] ∧
      tree'.content? ["notes", "3.txt"] = p.tree.content? ["notes", "3.txt"] := by
  have hb : IsPlainName "b" := ⟨by decide, by decide, by decide, by decide⟩
  have hc : IsPlainName "c" := ⟨by decide, by decide, by decide, by decide⟩
  rcases removes_own_files (e := .memory 0) (t := .removing) (c := renamePage 2 1)
    (p := .oddHashes) ⟨rfl, rfl⟩ rfl rfl with ⟨f, q, hfails, -⟩ | ⟨job, q, r, hjob, hr, hown⟩
  · cases hfails
  · obtain ⟨rfl, rfl⟩ := EStateM.Result.ok.inj hjob
    obtain rfl := Option.some.inj hr
    obtain ⟨hwithin, hothers⟩ := hown.plain hb
    exact ⟨by decide +kernel, hothers "c" hc (by decide) _ (by decide), hwithin _ (by decide)⟩

/-- For the empty hash a file of another archive is removed, and for two dots one that lies
outside the images directory. -/
theorem Call.odd_hashes_reach_further : ∃ job q r,
    let p := Application.oddHashes
    let d := r.context.files
    (renamePage 1 2).job Terms.removing p = .ok job q ∧ job.reconciliation? = some r ∧
      (p.storeOf (.memory 0)).archives.map ArchiveRow.hash = ["", "b", "..", "c"] ∧
      d.location "b" <+: ["images", "b", "2.png"] ∧
      p.tree.isFile ["images", "b", "2.png"] = true ∧
      (Work.left ((renamePage 1 2).perform Terms.removing) p).tree.isFile
        ["images", "b", "2.png"] = false ∧
      ¬ d.images <+: ["notes", "3.txt"] ∧ p.tree.isFile ["notes", "3.txt"] = true ∧
      (Work.left ((renamePage 3 3).perform Terms.removing) p).tree.isFile
        ["notes", "3.txt"] = false :=
  ⟨_, _, _, rfl, rfl, by decide +kernel, by decide, by decide +kernel, by decide +kernel,
    by decide, by decide +kernel, by decide +kernel⟩

end GalleryCatalog
