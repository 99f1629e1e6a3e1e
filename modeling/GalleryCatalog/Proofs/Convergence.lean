import GalleryCatalog.Proofs.Admission

/-!
# Convergence

Whatever an archive held, a reconciliation that returns leaves it with what the metadata
says: the renamed sources that have a name, with those that were merged, the last file
name for every page, and links to the renamed tags.
-/

set_option autoImplicit false

namespace GalleryCatalog

namespace Store

/-- An archive has a row with the name and the URL of a source. -/
def HoldsSource (s : Store) (archive : Int) (x : Source) : Prop :=
  ∃ r ∈ s.sources, r.archive = archive ∧ x.name = some r.name ∧ x.url = r.url

/-- A page of an archive shows a file. -/
def ShowsPage (s : Store) (archive page : Int) (filename : String) : Prop :=
  ∃ r ∈ s.images, r.archive = archive ∧ r.page = page ∧ r.filename = filename

/-- An archive is linked to the row of a tag. -/
def LinksTag (s : Store) (archive : Int) (t : Tag) : Prop :=
  ∃ l ∈ s.links, l.archive = archive ∧ ∃ r ∈ s.tags, r.id = l.tag ∧ r.tag = t

theorem holdsSource_iff {s : Store} {archive : Int} {x : Source} :
    s.HoldsSource archive x ↔ x ∈ s.sourcesOf archive := by
  rcases x with ⟨name, url⟩
  simp only [HoldsSource, mem_sourcesOf, SourceRow.source, Source.mk.injEq]
  constructor
  · rintro ⟨r, hr, ha, hname, hurl⟩
    exact ⟨r, hr, ha, hname.symm, hurl.symm⟩
  · rintro ⟨r, hr, ha, hname, hurl⟩
    exact ⟨r, hr, ha, hname.symm, hurl.symm⟩

theorem Sound.named {s : Store} (h : s.Sound) (archive : Int) :
    ∀ x ∈ s.sourcesOf archive, Reconcile.isNamed x = true := by
  intro x hx
  obtain ⟨r, hr, -, rfl⟩ := mem_sourcesOf.mp hx
  exact Reconcile.isNamed_iff.mpr ⟨r.name, rfl, h.source_names r hr⟩

/-- In a sound store a row is what its page shows. -/
theorem Sound.page?_row {s : Store} (h : s.Sound) {r : ImageRow} (hr : r ∈ s.images) :
    s.page? r.archive r.page = some r.image := by
  unfold page?
  cases hfind : s.images.find? (·.isPage r.archive r.page) with
  | none =>
    have := List.find?_eq_none.mp hfind r hr
    exact absurd (isPage_iff.mpr ⟨rfl, rfl⟩) this
  | some r' =>
    obtain ⟨ha, hp⟩ := isPage_iff.mp (List.find?_some hfind)
    have heq : r' = r := List.inj_on_of_nodup_map h.pages_once
      (List.mem_of_find?_eq_some hfind) hr (by rw [ha, hp])
    rw [heq, Option.map_some]

theorem Sound.showsPage_iff {s : Store} (h : s.Sound) {archive page : Int} {filename : String} :
    s.ShowsPage archive page filename ↔
      ∃ i, s.page? archive page = some i ∧ i.filename = filename := by
  constructor
  · rintro ⟨r, hr, rfl, rfl, rfl⟩
    exact ⟨r.image, h.page?_row hr, rfl⟩
  · rintro ⟨i, hi, rfl⟩
    obtain ⟨r, hr, rfl⟩ := Option.map_eq_some_iff.mp hi
    obtain ⟨ha, hp⟩ := isPage_iff.mp (List.find?_some hr)
    exact ⟨r, List.mem_of_find?_eq_some hr, ha, hp, rfl⟩

theorem linksTag_iff {s : Store} (h : (s.tags.map TagRow.id).Nodup) {archive : Int} {t : Tag} :
    s.LinksTag archive t ↔ ∃ r ∈ s.linksOf archive, r.tag = t := by
  simp only [LinksTag, mem_linksOf, linkedTag?_eq_some h]
  constructor
  · rintro ⟨l, hl, ha, r, hr, hid, htag⟩
    exact ⟨r, ⟨l, hl, ha, hr, hid⟩, htag⟩
  · rintro ⟨r, ⟨l, hl, ha, hr, hid⟩, htag⟩
    exact ⟨l, hl, ha, r, hr, hid, htag⟩

end Store

namespace Reconcile

variable {answers : TagAnswers} {o : Options} {id : Int} {m : Metadata} {s : Store}

theorem reconciled_sourcesOf {xs : List Source} (hm : m.sources = some xs) :
    (reconciled answers o id m s).sourcesOf id =
      (s.afterSources id o.sourceRules o.mergeSources xs).sourcesOf id := by
  unfold Store.sourcesOf
  rw [(reconciled_rest answers o id m s).2.1, sourced, hm]

theorem reconciled_page? {is : List Image} (hm : m.images = some is) (page : Int) :
    (reconciled answers o id m s).page? id page =
      (winner? is page).map fun i => i.over ((tagged answers o id m s).page? id page) := by
  rw [reconciled, hm]
  exact Store.afterImages_page? id is _ page

theorem reconciled_linksOf {ts : List Tag} (hm : m.tags = some ts) :
    (reconciled answers o id m s).linksOf id =
      ((sourced o id m s).afterTags answers id (normalizeTags o.tagRules ts)).linksOf id := by
  obtain ⟨-, -, htags, hlinks⟩ := reconciled_rest answers o id m s
  unfold Store.linksOf Store.linkedTag?
  rw [htags, hlinks, tagged, hm]

/-- After a reconciliation the linked tags are the wanted ones. -/
theorem reconciled_linked (hs : s.Sound) {ts : List Tag} (hm : m.tags = some ts)
    (hlinkable : Linkable answers id (normalizeTags o.tagRules ts) (sourced o id m s)) (t : Tag) :
    (∃ r ∈ (reconciled answers o id m s).linksOf id, r.tag = t) ↔
      t ∈ normalizeTags o.tagRules ts := by
  have hids : ((sourced o id m s).tags.map TagRow.id).Nodup := by
    rw [(sourced_rest o id m s).2.2.1]
    exact hs.tag_ids
  rw [reconciled_linksOf hm]
  exact afterTags_linked hids hlinkable t

theorem reconciled_holdsSource (hs : s.Sound) {xs : List Source} (hm : m.sources = some xs)
    {x : Source} : (reconciled answers o id m s).HoldsSource id x ↔
      o.mergeSources = true ∧ s.HoldsSource id x ∨
        (∃ y ∈ xs, y.mapped o.sourceRules = x) ∧ ∃ name, x.name = some name ∧ name ≠ "" := by
  rw [Store.holdsSource_iff, Store.holdsSource_iff, reconciled_sourcesOf hm,
    Store.mem_afterSources (hs.named id), mem_normalizeSources, isNamed_iff]

theorem reconciled_showsPage (hs : (reconciled answers o id m s).Sound) {is : List Image}
    (hm : m.images = some is) {page : Int} {filename : String} :
    (reconciled answers o id m s).ShowsPage id page filename ↔
      ∃ i, LastFor is i ∧ i.page = page ∧ i.filename = filename := by
  rw [hs.showsPage_iff, reconciled_page? hm]
  constructor
  · rintro ⟨i, hi, rfl⟩
    obtain ⟨j, hj, rfl⟩ := Option.map_eq_some_iff.mp hi
    obtain ⟨hlast, hpage⟩ := winner?_eq_some.mp hj
    exact ⟨j, hlast, hpage, rfl⟩
  · rintro ⟨i, hlast, hpage, rfl⟩
    rw [winner?_eq_some.mpr ⟨hlast, hpage⟩]
    exact ⟨_, rfl, rfl⟩

theorem reconciled_linksTag (hs : s.Sound) (hs' : (reconciled answers o id m s).Sound)
    {ts : List Tag} (hm : m.tags = some ts)
    (hlinkable : Linkable answers id (normalizeTags o.tagRules ts) (sourced o id m s)) {t : Tag} :
    (reconciled answers o id m s).LinksTag id t ↔
      ∃ u ∈ ts, u.normal.mapped o.tagRules = t := by
  rw [Store.linksTag_iff hs'.tag_ids, reconciled_linked hs hm hlinkable, mem_normalizeTags]

end Reconcile

/-- A reconciliation that returns leaves each collection of the archive as the metadata says:
sources by name and URL, file names by page, tags by name space and name. -/
theorem Service.reconcile_converges {c : Context} {id : Int} {merge verbose : Bool}
    {m : Metadata} {w u : Workspace} {s : Store} {r : ArchiveOutcome} (hs : s.Reachable)
    (h : reconcile c id merge verbose m (w.closedOn s) = .ok r u) :
    ∃ s', u.unit = .closed s' ∧
      (∀ xs, m.sources = some xs → ∀ x, s'.HoldsSource id x ↔
        merge = true ∧ s.HoldsSource id x ∨
          (∃ y ∈ xs, y.mapped c.settings.sourceRules = x) ∧
            ∃ name, x.name = some name ∧ name ≠ "") ∧
      (∀ is, m.images = some is → ∀ page filename, s'.ShowsPage id page filename ↔
        ∃ i, Reconcile.LastFor is i ∧ i.page = page ∧ i.filename = filename) ∧
      ∀ ts, m.tags = some ts → ∀ t, s'.LinksTag id t ↔
        ∃ t' ∈ ts, t'.normal.mapped c.settings.tagRules = t := by
  obtain ⟨-, row, hrow, w', v, -, hdone, hunit, -⟩ := reconcile_eq_ok h
  have hsound := hs.sound
  have hafter := hsound.reconciled (Store.row?_hasArchive hrow)
    (hdone.links_once hsound.links_once)
  refine ⟨_, hunit, fun xs hm x => ?_, fun is hm page filename => ?_, fun ts hm t => ?_⟩
  · exact Reconcile.reconciled_holdsSource hsound hm
  · exact Reconcile.reconciled_showsPage hafter hm
  · exact Reconcile.reconciled_linksTag hsound hafter hm (hdone.linkable ts hm)

namespace Metadata

/-- Two sources, one of them without a name, two images for one page, and a tag. -/
def sample : Metadata where
  sources := some [⟨some "site", none⟩, ⟨none, some "site/1"⟩]
  images := some [⟨"1.png", 1, none, none⟩, ⟨"1.jpg", 1, some 800, none⟩]
  tags := some [⟨"", "blue"⟩]

end Metadata

def Service.Context.sample : Context where
  settings := { images := ⟨.slash, ["images"]⟩ }

/-- For an archive that holds things already: a source and a tag stay, one of each goes and
another one comes, and so does a page, while one gets another file name. -/
def Metadata.renewed : Metadata where
  sources := some [⟨some "new", some "new/1"⟩, ⟨some "site", none⟩, ⟨none, some "site/1"⟩]
  images := some [⟨"1.jpg", 1, none, some 480⟩, ⟨"3.png", 3, none, none⟩]
  tags := some [⟨"", "green"⟩, ⟨"tag", "red"⟩]

theorem Service.filled_returns : ∃ r u,
    reconcile .sample 1 false false .renewed (Workspace.closedOn {} .filled) = .ok r u := by
  have hsound := Store.filled_reachable.sound
  have himages : ∀ is ∈ Metadata.renewed.images, Reconcile.Storable 1 is .filled := by
    rintro is ⟨⟩
    exact ⟨by decide, Reconcile.pageRefusal?_stale (by decide) (by decide) _ 1⟩
  obtain ⟨returned, u, hrun⟩ := Reconciliation.run_returns
    (p := ⟨.sample, 1, false, false, .renewed⟩) (fun _ => rfl) hsound.tagsKeyed
    (Store.filled_reachable.room (by decide)) (by decide) (by decide) (by decide)
    (by decide +kernel) himages {}
  obtain ⟨r, hreconcile, -⟩ := Work.map_eq_ok.mp hrun
  exact ⟨r, u.closedOn _, hreconcile⟩

theorem Service.renewed_converges : ∃ r u s',
    reconcile .sample 1 false false .renewed (Workspace.closedOn {} .filled) = .ok r u ∧
      u.unit = .closed s' ∧
      (s'.HoldsSource 1 ⟨some "site", none⟩ ∧ s'.HoldsSource 1 ⟨some "new", some "new/1"⟩ ∧
        ¬ s'.HoldsSource 1 ⟨some "old", some "old/1"⟩) ∧
      (s'.ShowsPage 1 1 "1.jpg" ∧ s'.ShowsPage 1 3 "3.png" ∧ ¬ s'.ShowsPage 1 1 "1.png" ∧
        ¬ s'.ShowsPage 1 2 "2.png") ∧
      s'.LinksTag 1 ⟨"tag", "red"⟩ ∧ s'.LinksTag 1 ⟨"tag", "green"⟩ ∧
        ¬ s'.LinksTag 1 ⟨"tag", "blue"⟩ := by
  obtain ⟨r, u, hrun⟩ := filled_returns
  obtain ⟨s', hunit, hsources, himages, htags⟩ := reconcile_converges Store.filled_reachable hrun
  refine ⟨r, u, s', hrun, hunit, ⟨?_, ?_, ?_⟩, ⟨?_, ?_, ?_, ?_⟩, ?_, ?_, ?_⟩
  · exact (hsources _ rfl _).mpr (.inr ⟨by decide, "site", rfl, by decide⟩)
  · exact (hsources _ rfl _).mpr (.inr ⟨by decide, "new", rfl, by decide⟩)
  · rw [hsources _ rfl]
    rintro (⟨hmerge, -⟩ | ⟨hgiven, -⟩)
    · cases hmerge
    · revert hgiven
      decide
  · exact (himages _ rfl _ _).mpr ⟨_, ⟨[], [_], rfl, by simp⟩, rfl, rfl⟩
  · exact (himages _ rfl _ _).mpr ⟨_, ⟨[_], [], rfl, by simp⟩, rfl, rfl⟩
  · rw [himages _ rfl]
    rintro ⟨i, ⟨before, after, hlist, -⟩, -, hname⟩
    have hi : i ∈ [(⟨"1.jpg", 1, none, some 480⟩ : Image), ⟨"3.png", 3, none, none⟩] := by
      simp [hlist]
    rcases List.mem_pair.mp hi with rfl | rfl <;> simp at hname
  · rw [himages _ rfl]
    rintro ⟨i, ⟨before, after, hlist, -⟩, hpage, -⟩
    have hi : i ∈ [(⟨"1.jpg", 1, none, some 480⟩ : Image), ⟨"3.png", 3, none, none⟩] := by
      simp [hlist]
    rcases List.mem_pair.mp hi with rfl | rfl <;> simp at hpage
  · exact (htags _ rfl _).mpr (by decide)
  · exact (htags _ rfl _).mpr (by decide)
  · rw [htags _ rfl]
    decide

end GalleryCatalog
