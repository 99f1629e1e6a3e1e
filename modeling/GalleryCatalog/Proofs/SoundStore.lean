import Mathlib.Data.List.Nodup
import GalleryCatalog.Proofs.ImagePass
import GalleryCatalog.Proofs.SourcePass
import GalleryCatalog.Proofs.TagPass

/-!
# Sound stores

A store is sound when its rows are told apart by their keys, refer to rows that are
there, and leave no name or name space empty. The database itself asks for less. Every
row that is put or removed keeps a store sound, and so does every pass of a
reconciliation.
-/

set_option autoImplicit false

namespace GalleryCatalog

/-- Whether an archive is stored. -/
def Store.HasArchive (s : Store) (archive : Int) : Prop :=
  archive ∈ s.archives.map ArchiveRow.id

/-- What holds of the rows of a store. The rows of a table are known by their numbers, and
the other keys are the ones by which reconciliations compare rows. -/
structure Store.Sound (s : Store) : Prop where
  archive_ids : (s.archives.map ArchiveRow.id).Nodup
  archive_hashes : (s.archives.map ArchiveRow.hash).Nodup
  source_ids : (s.sources.map SourceRow.id).Nodup
  image_ids : (s.images.map ImageRow.id).Nodup
  tag_ids : (s.tags.map TagRow.id).Nodup
  source_archives : ∀ r ∈ s.sources, s.HasArchive r.archive
  image_archives : ∀ r ∈ s.images, s.HasArchive r.archive
  link_archives : ∀ l ∈ s.links, s.HasArchive l.archive
  link_tags : ∀ l ∈ s.links, l.tag ∈ s.tags.map TagRow.id
  sources_once : (s.sources.map fun r => (r.archive, r.name, r.url)).Nodup
  pages_once : (s.images.map fun r => (r.archive, r.page)).Nodup
  links_once : s.links.Nodup
  tags_once : (s.tags.map TagRow.tag).Nodup
  source_names : ∀ r ∈ s.sources, r.name ≠ ""
  tag_spaces : ∀ r ∈ s.tags, r.tag.space ≠ ""

/-- A row with a key of its own can be added. -/
theorem nodup_map_append {α β : Type} {f : α → β} {xs : List α} {x : α}
    (h : (xs.map f).Nodup) (hx : ∀ y ∈ xs, f y ≠ f x) : ((xs ++ [x]).map f).Nodup := by
  rw [List.map_append, List.map_singleton, ← List.concat_eq_append]
  refine List.Nodup.concat ?_ h
  simpa using hx

theorem nextId_ne {α : Type} {id : α → Int} {xs : List α} {x : α} (hx : x ∈ xs) :
    id x ≠ nextId (xs.map id) :=
  fun h => nextId_not_mem (xs.map id) (h ▸ List.mem_map_of_mem hx)

/-- The store with an archive row at the end. -/
def Store.withArchive (s : Store) (r : ArchiveRow) : Store :=
  { s with archives := s.archives ++ [r] }

namespace Store.Sound

variable {s s' : Store}

theorem empty : Store.Sound {} := by
  constructor <;> simp

/-- Rows of sources, images and links can go. -/
theorem of_sublists (h : s.Sound) (archives : s'.archives = s.archives) (tags : s'.tags = s.tags)
    (sources : s'.sources.Sublist s.sources) (images : s'.images.Sublist s.images)
    (links : s'.links.Sublist s.links) : s'.Sound where
  archive_ids := archives ▸ h.archive_ids
  archive_hashes := archives ▸ h.archive_hashes
  source_ids := h.source_ids.sublist (sources.map _)
  image_ids := h.image_ids.sublist (images.map _)
  tag_ids := tags ▸ h.tag_ids
  source_archives r hr := by
    rw [HasArchive, archives]
    exact h.source_archives r (sources.subset hr)
  image_archives r hr := by
    rw [HasArchive, archives]
    exact h.image_archives r (images.subset hr)
  link_archives l hl := by
    rw [HasArchive, archives]
    exact h.link_archives l (links.subset hl)
  link_tags l hl := tags ▸ h.link_tags l (links.subset hl)
  sources_once := h.sources_once.sublist (sources.map _)
  pages_once := h.pages_once.sublist (images.map _)
  links_once := h.links_once.sublist links
  tags_once := tags ▸ h.tags_once
  source_names r hr := h.source_names r (sources.subset hr)
  tag_spaces := tags ▸ h.tag_spaces

theorem withoutSource (h : s.Sound) (archive : Int) (x : Source) :
    (s.withoutSource archive x).Sound :=
  h.of_sublists rfl rfl List.filter_sublist (List.Sublist.refl _) (List.Sublist.refl _)

theorem withoutPages (h : s.Sound) (archive : Int) (pages : List Int) :
    (s.withoutPages archive pages).Sound :=
  h.of_sublists rfl rfl (List.Sublist.refl _) List.filter_sublist (List.Sublist.refl _)

theorem withArchive (h : s.Sound) {row : ArchiveRow} (hid : ∀ r ∈ s.archives, r.id ≠ row.id)
    (hhash : ∀ r ∈ s.archives, r.hash ≠ row.hash) : (s.withArchive row).Sound := by
  have hstays : ∀ {archive}, s.HasArchive archive → (s.withArchive row).HasArchive archive := by
    intro archive ha
    rw [HasArchive, Store.withArchive, List.map_append]
    exact List.mem_append_left _ ha
  exact { h with
    archive_ids := nodup_map_append h.archive_ids hid
    archive_hashes := nodup_map_append h.archive_hashes hhash
    source_archives := fun r hr => hstays (h.source_archives r hr)
    image_archives := fun r hr => hstays (h.image_archives r hr)
    link_archives := fun l hl => hstays (h.link_archives l hl) }

/-! ## Sources -/

theorem withSource (h : s.Sound) {archive : Int} (ha : s.HasArchive archive) {x : Source}
    (hx : Reconcile.isNamed x = true) (hnew : x ∉ s.sourcesOf archive) :
    (s.withSource archive x).Sound := by
  rcases x with ⟨_ | name, url⟩
  · simp [Reconcile.isNamed, Source.givenName] at hx
  · have hname : name ≠ "" := by
      rintro rfl
      simp [Reconcile.isNamed, Source.givenName, Option.filter] at hx
    have hkey : ∀ r ∈ s.sources, (r.archive, r.name, r.url) ≠ (archive, name, url) := by
      intro r hr heq
      obtain ⟨rfl, rfl, rfl⟩ : r.archive = archive ∧ r.name = name ∧ r.url = url := by
        simpa using heq
      exact hnew (mem_sourcesOf.mpr ⟨r, hr, rfl, rfl⟩)
    refine { h with
      source_ids := nodup_map_append h.source_ids fun r hr => nextId_ne hr
      sources_once := nodup_map_append h.sources_once hkey
      source_archives := fun r hr => ?_
      source_names := fun r hr => ?_ }
    all_goals rcases List.mem_append.mp hr with hold | hadded
    · exact h.source_archives r hold
    · obtain rfl := List.mem_singleton.mp hadded
      exact ha
    · exact h.source_names r hold
    · obtain rfl := List.mem_singleton.mp hadded
      exact hname

theorem withSources (h : s.Sound) {archive : Int} (ha : s.HasArchive archive)
    {xs : List Source} (hxs : xs.Nodup) (hnamed : ∀ x ∈ xs, Reconcile.isNamed x = true)
    (hnew : ∀ x ∈ xs, x ∉ s.sourcesOf archive) :
    (xs.foldl (Store.withSource archive) s).Sound := by
  induction xs generalizing s with
  | nil => exact h
  | cons x xs ih =>
    obtain ⟨hx, hrest⟩ := List.nodup_cons.mp hxs
    have hfirst := hnamed x (by simp)
    have hstep := h.withSource ha hfirst (hnew x (by simp))
    refine ih hstep ha hrest (fun y hy => hnamed y (by simp [hy])) fun y hy hmem => ?_
    rw [withSource_sourcesOf archive s hfirst] at hmem
    rcases List.mem_append.mp hmem with hold | hadded
    · exact hnew y (by simp [hy]) hold
    · exact hx (List.mem_singleton.mp hadded ▸ hy)

theorem withoutSources (h : s.Sound) (archive : Int) (xs : List Source) :
    (xs.foldl (Store.withoutSource archive) s).Sound := by
  induction xs generalizing s with
  | nil => exact h
  | cons x xs ih => exact ih (h.withoutSource archive x)

theorem afterSources (h : s.Sound) {archive : Int} (ha : s.HasArchive archive)
    (rules : List SourceRule) (merge : Bool) (incoming : List Source) :
    (s.afterSources archive rules merge incoming).Sound := by
  have hfresh := (normalizeSources_nodup rules incoming).filter fun x =>
    !(s.sourcesOf archive).contains x
  have harchives : ∀ xs : List Source,
      (xs.foldl (Store.withoutSource archive) s).archives = s.archives := fun xs =>
    Work.foldl_view (f := Store.withoutSource archive) Store.archives (fun _ _ => rfl) xs s
  refine (h.withoutSources archive _).withSources ?_ (hfresh.filter _) ?_ ?_
  · rwa [HasArchive, harchives]
  · intro x hx
    exact (List.mem_filter.mp hx).2
  · intro x hx hmem
    rw [withoutSources_sourcesOf] at hmem
    have hnot := (List.mem_filter.mp (List.mem_filter.mp hx).1).2
    simp [(List.mem_filter.mp hmem).1] at hnot

/-! ## Images -/

theorem withImage (h : s.Sound) {archive : Int} (ha : s.HasArchive archive) (i : Image) :
    (s.withImage archive i).Sound := by
  let update (r : ImageRow) : ImageRow := if r.isPage archive i.page then r.updated i else r
  -- an image put over a row leaves the number, the archive and the page of the row
  have hkeep : ∀ r, (update r).id = r.id ∧ (update r).archive = r.archive ∧
      (update r).page = r.page := by
    intro r
    by_cases hr : r.isPage archive i.page = true <;> simp [update, hr, ImageRow.updated]
  have himages : (s.withImage archive i).images = s.images.map update ∨ _ :=
    withImage_images archive s i
  obtain ⟨rows, hrows⟩ := withImage_frame archive s i
  rw [hrows] at himages ⊢
  rcases himages with rfl | ⟨rfl, hnone⟩
  · refine { h with
      image_ids := ?_
      image_archives := fun r hr => ?_
      pages_once := ?_ }
    · rw [List.map_map, Function.comp_def]
      simpa only [hkeep] using h.image_ids
    · obtain ⟨old, hold, rfl⟩ := List.mem_map.mp hr
      rw [(hkeep old).2.1]
      exact h.image_archives old hold
    · rw [List.map_map, Function.comp_def]
      simpa only [hkeep] using h.pages_once
  · have hkey : ∀ r ∈ s.images, (r.archive, r.page) ≠ (archive, i.page) := by
      intro r hr heq
      exact hnone r hr (isPage_iff.mpr (by simpa using heq))
    refine { h with
      image_ids := nodup_map_append h.image_ids fun r hr => nextId_ne hr
      image_archives := fun r hr => ?_
      pages_once := nodup_map_append h.pages_once hkey }
    rcases List.mem_append.mp hr with hold | hadded
    · exact h.image_archives r hold
    · obtain rfl := List.mem_singleton.mp hadded
      exact ha

theorem withImages (h : s.Sound) {archive : Int} (ha : s.HasArchive archive)
    (images : List Image) : (images.foldl (Store.withImage archive) s).Sound := by
  induction images generalizing s with
  | nil => exact h
  | cons i images ih =>
    refine ih (h.withImage ha i) ?_
    obtain ⟨rows, hrows⟩ := withImage_frame archive s i
    rwa [hrows]

theorem afterImages (h : s.Sound) {archive : Int} (ha : s.HasArchive archive)
    (incoming : List Image) : (s.afterImages archive incoming).Sound :=
  (h.withImages ha _).withoutPages archive _

/-! ## Tags and links -/

theorem withTag (h : s.Sound) {t : Tag} (ht : t.space ≠ "") : (s.withTag t).Sound := by
  have htags := withTag_tags s t
  obtain ⟨rows, hrows⟩ := withTag_frame s t
  rw [hrows] at htags ⊢
  rcases htags with ⟨rfl, -⟩ | ⟨rfl, hnone⟩
  · exact h
  · refine { h with
      tag_ids := nodup_map_append h.tag_ids fun r hr => nextId_ne hr
      link_tags := fun l hl => ?_
      tags_once := nodup_map_append h.tags_once hnone
      tag_spaces := fun r hr => ?_ }
    · rw [List.map_append]
      exact List.mem_append_left _ (h.link_tags l hl)
    · rcases List.mem_append.mp hr with hold | hadded
      · exact h.tag_spaces r hold
      · obtain rfl := List.mem_singleton.mp hadded
        exact ht

theorem withTags (h : s.Sound) {tags : List Tag} (htags : ∀ t ∈ tags, t.space ≠ "") :
    (tags.foldl Store.withTag s).Sound := by
  induction tags generalizing s with
  | nil => exact h
  | cons t tags ih =>
    exact ih (h.withTag (htags t (by simp))) fun u hu => htags u (by simp [hu])

/-- A pass over tags is sound when it adds no link twice. -/
theorem afterTags (h : s.Sound) {archive : Int} (ha : s.HasArchive archive)
    (answers : Reconcile.TagAnswers) {wanted : List Tag} (hspaces : ∀ t ∈ wanted, t.space ≠ "")
    (honce : (s.afterTags answers archive wanted).links.Nodup) :
    (s.afterTags answers archive wanted).Sound := by
  have hups : (Reconcile.upsertedTags answers wanted s).Sound := by
    refine h.withTags fun t ht => ?_
    exact hspaces t (List.mem_filter.mp ht).1
  have htags := Reconcile.afterTags_tags answers archive wanted s
  have hlink : ∀ l ∈ (s.afterTags answers archive wanted).links,
      s.HasArchive l.archive ∧
        l.tag ∈ (Reconcile.upsertedTags answers wanted s).tags.map TagRow.id := by
    intro l hl
    rcases Reconcile.mem_afterTags_links.mp hl with ⟨hold, -⟩ | ⟨n, hn, rfl⟩
    · refine ⟨h.link_archives l hold, hups.link_tags l ?_⟩
      rwa [Reconcile.upsertedTags_links]
    · obtain ⟨r, hr, rfl, -⟩ := Reconcile.mem_freshIds hn
      exact ⟨ha, List.mem_map_of_mem hr⟩
  obtain ⟨rows, links, hframe⟩ := Reconcile.afterTags_frame answers archive wanted s
  rw [hframe] at htags hlink honce ⊢
  obtain rfl : rows = _ := htags
  exact { h with
    tag_ids := hups.tag_ids
    link_archives := fun l hl => (hlink l hl).1
    link_tags := fun l hl => (hlink l hl).2
    links_once := honce
    tags_once := hups.tags_once
    tag_spaces := hups.tag_spaces }

end Store.Sound

end GalleryCatalog
