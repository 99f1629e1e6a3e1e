import GalleryCatalog.Proofs.Convergence
import GalleryCatalog.Proofs.Reconciliation
import GalleryCatalog.Proofs.RowChanges

/-!
# Minimal changes

A reconciliation takes out the rows that its metadata no longer has, writes new file names
over the pages that stay, and adds rows for what is new. All other rows stand as they
stood. What it counts is what it has done, and it says that nothing has changed just when
it has left the rows as they were.
-/

set_option autoImplicit false

namespace GalleryCatalog

open Reconcile

theorem SourceOutcome.changed_eq_false {o : SourceOutcome} :
    o.changed = false ↔ o.inserted = 0 ∧ o.deleted = 0 := by
  simp [changed]

theorem ImageOutcome.changed_eq_false {o : ImageOutcome} :
    o.changed = false ↔ o.inserted = 0 ∧ o.updated = 0 ∧ o.deleted = 0 := by
  simp [changed]

theorem TagOutcome.changed_eq_false {o : TagOutcome} :
    o.changed = false ↔ o.upserted = 0 ∧ o.inserted = 0 ∧ o.deleted = 0 := by
  simp [changed]

/-- A row of an image without the dimensions. -/
def ImageRow.unsized (r : ImageRow) : ImageRow :=
  { r with width := none, height := none }

/-- What a pass over sources has done to the rows of two stores, and what it has counted. -/
structure SourceDiff (archive : Int) (merge : Bool) (wanted : List Source) (s s' : Store)
    (added : List SourceRow) (o : SourceOutcome) : Prop where
  rows : s'.sources = (s.sources.filter fun r => !dropsSource archive merge wanted r) ++ added
  numbers : Numbered
    ((s.sources.filter fun r => !dropsSource archive merge wanted r).map SourceRow.id)
    (added.map SourceRow.id)
  owner : ∀ r ∈ added, r.archive = archive
  order : added.map SourceRow.source =
    wanted.filter fun x => !(s.sourcesOf archive).contains x && isNamed x
  listed : s'.sourcesOf archive =
    ((s.sourcesOf archive).filter fun x => merge || wanted.contains x) ++
      added.map SourceRow.source
  deleted : o.deleted = s.sources.countP (dropsSource archive merge wanted)
  inserted : o.inserted = added.length
  changed : o.changed = false ↔ s'.sources = s.sources

/-- What a pass over images has done. Rows that stay keep their number and their place, also
when they get another file name. -/
structure ImageDiff (archive : Int) (incoming : List Image) (s s' : Store)
    (added : List ImageRow) (o : ImageOutcome) : Prop where
  rows : s'.images = (s.images.filter fun r => !dropsPage archive incoming r).map
    (overwritten archive incoming) ++ added
  in_place : ∀ r, (overwritten archive incoming r).id = r.id ∧
    (overwritten archive incoming r).archive = r.archive ∧
    (overwritten archive incoming r).page = r.page
  numbers : Numbered (s.images.map ImageRow.id) (added.map ImageRow.id)
  owner : ∀ r ∈ added, r.archive = archive
  order : added.map ImageRow.page = (incoming.map Image.page).eraseDups.filter
    fun page => !s.images.any (·.isPage archive page)
  shown : ∀ r ∈ added, winner? incoming r.page = some r.image
  deleted : o.deleted = s.images.countP (dropsPage archive incoming)
  inserted : o.inserted = added.length
  updated : o.updated =
    s.images.countP fun r => (overwritten archive incoming r).filename ≠ r.filename
  changed : o.changed = false ↔ s'.images.map ImageRow.unsized = s.images.map ImageRow.unsized

/-- What a pass over tags has done. Rows of tags are counted only where the look-up has shown
those that were there. -/
structure TagDiff (answers : TagAnswers) (archive : Int) (wanted : List Tag) (s s' : Store)
    (added : List TagRow) (linked : List LinkRow) (o : TagOutcome) : Prop where
  tags : s'.tags = s.tags ++ added
  numbers : Numbered (s.tags.map TagRow.id) (added.map TagRow.id)
  order : added.map TagRow.tag = wanted.filter fun t => !hasTag s.tags t
  links : s'.links = (s.links.filter fun l => !dropsLink archive wanted s.tags l) ++ linked
  fresh : ∀ l ∈ linked, l ∉ s.links ∧ l.archive = archive ∧
    ∃ r ∈ s'.tags, r.id = l.tag ∧ r.tag ∈ wanted
  deleted : o.deleted = s.links.countP (dropsLink archive wanted s.tags)
  inserted : o.inserted = linked.length
  upserted : (∀ r ∈ s.tags, answers.found r = true) → o.upserted = added.length
  changed : (∀ r ∈ s.tags, answers.found r = true) →
    (o.changed = false ↔ s'.tags = s.tags ∧ s'.links = s.links)

/-- A table from which some rows were taken and to which rows were added that it did not hold
is as it was only if nothing was done. -/
theorem edited_eq_iff {α : Type} {old added : List α} {drop : α → Bool}
    (hnew : ∀ a ∈ added, a ∉ old) :
    (old.filter fun a => !drop a) ++ added = old ↔ old.countP drop = 0 ∧ added = [] := by
  constructor
  · intro h
    have hnone : added = [] := by
      rw [List.eq_nil_iff_forall_not_mem]
      intro a ha
      exact hnew a ha (h ▸ List.mem_append_right _ ha)
    rw [hnone, List.append_nil, List.filter_eq_self] at h
    refine ⟨List.countP_eq_zero.mpr fun a ha => ?_, hnone⟩
    simpa using h a ha
  · rintro ⟨hcount, rfl⟩
    rw [List.append_nil, List.filter_eq_self]
    intro a ha
    simpa using List.countP_eq_zero.mp hcount a ha

/-! ## Sources -/

section Sources

variable {id : Int} {rules : List SourceRule} {merge : Bool} {xs : List Source} {s s' : Store}

theorem staleSources_length (id : Int) (merge : Bool) (wanted : List Source) (s : Store) :
    (staleSources merge wanted (s.sourcesOf id)).length =
      s.sources.countP (dropsSource id merge wanted) := by
  cases merge with
  | true =>
    have hnone : ∀ r ∈ s.sources, ¬ dropsSource id true wanted r = true := by
      simp [dropsSource]
    simp [staleSources, List.countP_eq_zero.mpr hnone]
  | false =>
    simp only [staleSources, Bool.false_eq_true, if_false]
    rw [← List.countP_eq_length_filter, Store.sourcesOf, List.countP_map, List.countP_filter]
    apply List.countP_congr
    intro r _
    simp [dropsSource, and_comm]

theorem sourceDiff (hrows : s'.sources = (s.afterSources id rules merge xs).sources) :
    ∃ added, SourceDiff id merge (normalizeSources rules xs) s s' added
      (sourceOutcome rules merge xs (s.sourcesOf id)) := by
  obtain ⟨added, hafter, hnumbers, howner, hsources⟩ := s.afterSources_rows id rules merge xs
  let wanted := normalizeSources rules xs
  have hinserted : ((freshSources wanted (s.sourcesOf id)).filter isNamed).length =
      added.length := by
    rw [← hsources, List.length_map]
  have hstale := staleSources_length id merge wanted s
  have hlisted := s.afterSources_sourcesOf id rules merge xs
  have hnew : ∀ r ∈ added, r ∉ s.sources := by
    intro r hr hold
    have hfresh : r.source ∈ (freshSources wanted (s.sourcesOf id)).filter isNamed :=
      hsources ▸ List.mem_map_of_mem hr
    have hstored : r.source ∈ s.sourcesOf id :=
      Store.mem_sourcesOf.mpr ⟨r, hold, howner r hr, rfl⟩
    have hnot := (List.mem_filter.mp (List.mem_filter.mp hfresh).1).2
    simp [hstored] at hnot
  refine ⟨added, hrows.trans hafter, hnumbers, howner, ?_, ?_, hstale, hinserted, ?_⟩
  · rw [hsources, freshSources, List.filter_filter]
    exact List.filter_congr fun x _ => Bool.and_comm _ _
  · rw [hsources, Store.sourcesOf, hrows]
    exact hlisted
  · have hzero : (sourceOutcome rules merge xs (s.sourcesOf id)).inserted = 0 ↔ added = [] := by
      rw [← List.length_eq_zero_iff, ← hinserted]
      rfl
    rw [hrows, hafter, edited_eq_iff hnew, SourceOutcome.changed_eq_false, hzero, ← hstale, and_comm]
    rfl

end Sources

/-! ## Images -/

section Images

variable {id : Int} {is : List Image} {s s' : Store}

theorem overwritten_of_winner {r : ImageRow} {i : Image} (ha : r.archive = id)
    (hi : winner? is r.page = some i) : overwritten id is r = r.updated i := by
  simp [overwritten, ha, hi]

theorem imagesOf_countP (p : Image → Bool) :
    (s.imagesOf id).countP p = s.images.countP fun r => decide (r.archive = id) && p r.image := by
  rw [Store.imagesOf, (List.mergeSort_perm _ _).countP_eq, List.countP_map, List.countP_filter]
  exact List.countP_congr fun r _ => by simp [and_comm]

theorem stalePages_length (id : Int) (is : List Image) (s : Store) :
    (stalePages (winners is) (s.imagesOf id)).length =
      s.images.countP (dropsPage id is) := by
  rw [stalePages, ← List.countP_eq_length_filter, List.countP_map, imagesOf_countP]
  apply List.countP_congr
  intro r _
  by_cases ha : r.archive = id
  · simp [ha, dropsPage_eq ha, hasPage_winners, ImageRow.image]
  · simp [ha, dropsPage]

theorem replacedImages_length (id : Int) (is : List Image) (s : Store) :
    (replacedImages (winners is) (s.imagesOf id)).length =
      s.images.countP fun r => (overwritten id is r).filename ≠ r.filename := by
  rw [replacedImages, ← List.countP_eq_length_filter, imagesOf_countP]
  apply List.countP_congr
  intro r _
  by_cases ha : r.archive = id
  · have hany : ((winners is).any fun i =>
        i.page = r.image.page ∧ i.filename ≠ r.image.filename) =
        (winner? is r.page).any fun i => i.filename ≠ r.filename :=
      winners_any is r.page fun i => i.filename ≠ r.filename
    rw [hany]
    cases hwin : winner? is r.page with
    | none => simp [overwritten, ha, hwin]
    | some i =>
      simp [ha, overwritten_of_winner ha hwin, ImageRow.updated]
  · simp [ha, overwritten]

theorem newImages_eq : newImages (winners is) (s.imagesOf id) =
    (winners is).filter fun i => !s.images.any (·.isPage id i.page) := by
  apply List.filter_congr
  intro i _
  congr 1
  rw [Bool.eq_iff_iff]
  simp only [hasPage, List.any_eq_true, Store.mem_imagesOf, Store.isPage_iff, decide_eq_true_eq]
  constructor
  · rintro ⟨c, ⟨r, hr, ha, rfl⟩, hpage⟩
    exact ⟨r, hr, ha, hpage⟩
  · rintro ⟨r, hr, ha, hpage⟩
    exact ⟨r.image, ⟨r, hr, ha, rfl⟩, hpage⟩

theorem winners_pages (stored : Int → Bool) :
    ((winners is).filter fun i => !stored i.page).map Image.page =
      (is.map Image.page).eraseDups.filter fun page => !stored page := by
  have hpages : (winners is).map Image.page = (is.map Image.page).eraseDups := by
    have hall : ∀ page ∈ (is.map Image.page).eraseDups,
        (winner? is page).map Image.page = some page := by
      intro page hpage
      obtain ⟨i, hi, rfl⟩ := List.mem_map.mp (List.mem_eraseDups.mp hpage)
      cases hwin : winner? is i.page with
      | none => exact absurd rfl (winner?_eq_none.mp hwin i hi)
      | some j => rw [Option.map_some, winner?_page hwin]
    rw [winners, List.map_filterMap, List.filterMap_congr hall, List.filterMap_some]
  rw [← hpages, List.filter_map]
  rfl

theorem overwritten_unsized {r : ImageRow}
    (h : (overwritten id is r).filename = r.filename) :
    (overwritten id is r).unsized = r.unsized := by
  obtain ⟨hid, harchive, hpage⟩ := overwritten_key id is r
  simp [ImageRow.unsized, hid, harchive, hpage, h]

section Unsized

variable {added : List ImageRow} (howner : ∀ r ∈ added, r.archive = id)
  (hnew : ∀ r ∈ added, s.images.any (·.isPage id r.page) = false)
include howner hnew

theorem unsized_not_mem {r : ImageRow} (hr : r ∈ added) :
    r.unsized ∉ s.images.map ImageRow.unsized := by
  intro hold
  obtain ⟨old, hmem, heq⟩ := List.mem_map.mp hold
  simp only [ImageRow.unsized, ImageRow.mk.injEq] at heq
  have hpage : old.isPage id r.page = true :=
    Store.isPage_iff.mpr ⟨heq.2.1.trans (howner r hr), heq.2.2.1⟩
  exact List.any_eq_false.mp (hnew r hr) old hmem hpage

/-- Apart from dimensions the rows are the same only if no page has gone, come or got another
file name. -/
theorem images_unsized_iff
    (hrows : s'.images = (s.images.filter fun r => !dropsPage id is r).map (overwritten id is) ++
      added) :
    s'.images.map ImageRow.unsized = s.images.map ImageRow.unsized ↔
      added = [] ∧ s.images.countP (fun r => (overwritten id is r).filename ≠ r.filename) = 0 ∧
        s.images.countP (dropsPage id is) = 0 := by
  rw [hrows, List.countP_eq_zero, List.countP_eq_zero]
  constructor
  · intro hsame
    have hnone : added = [] := by
      rw [List.eq_nil_iff_forall_not_mem]
      intro r hr
      apply unsized_not_mem howner hnew hr
      rw [← hsame, List.map_append]
      exact List.mem_append_right _ (List.mem_map_of_mem hr)
    subst hnone
    rw [List.append_nil] at hsame
    have hlength := congrArg List.length hsame
    simp only [List.length_map] at hlength
    have hkept : s.images.filter (fun r => !dropsPage id is r) = s.images :=
      List.filter_sublist.eq_of_length hlength
    have hdrop : ∀ r ∈ s.images, ¬ dropsPage id is r = true := by
      simpa using List.filter_eq_self.mp hkept
    rw [hkept, List.map_map, List.map_inj_left] at hsame
    refine ⟨rfl, fun r hr hne => ?_, hdrop⟩
    have hname := congrArg ImageRow.filename (hsame r hr)
    exact (of_decide_eq_true hne) hname
  · rintro ⟨rfl, hnames, hdrop⟩
    have hkept : s.images.filter (fun r => !dropsPage id is r) = s.images := by
      rw [List.filter_eq_self]
      simpa using hdrop
    rw [List.append_nil, hkept, List.map_map, List.map_inj_left]
    intro r hr
    have hname : (overwritten id is r).filename = r.filename := by simpa using hnames r hr
    exact overwritten_unsized hname

end Unsized

theorem imageDiff {t : Store} (ht : t.images = s.images)
    (hrows : s'.images = (t.afterImages id is).images) (removed : Nat) :
    ∃ added, ImageDiff id is s s' added (imageOutcome is (s.imagesOf id) removed) := by
  obtain ⟨added, hafter, hnumbers, howner, himages⟩ := t.afterImages_rows id is
  rw [ht] at hafter hnumbers himages
  have hinserted : (newImages (winners is) (s.imagesOf id)).length = added.length := by
    rw [newImages_eq, ← himages, List.length_map]
  have hwinner : ∀ r ∈ added, r.image ∈ (winners is).filter
      fun i => !s.images.any (·.isPage id i.page) := fun r hr =>
    himages ▸ List.mem_map_of_mem hr
  have hnew : ∀ r ∈ added, s.images.any (·.isPage id r.page) = false := by
    intro r hr
    simpa [ImageRow.image] using (List.mem_filter.mp (hwinner r hr)).2
  have hpages : added.map ImageRow.page = (added.map ImageRow.image).map Image.page := by
    rw [List.map_map]
    rfl
  have hstale := stalePages_length id is s
  have hreplaced := replacedImages_length id is s
  refine ⟨added, hrows.trans hafter, overwritten_key id is, hnumbers, howner, ?_, ?_, hstale,
    hinserted, hreplaced, ?_⟩
  · rw [hpages, himages]
    exact winners_pages fun page => s.images.any (·.isPage id page)
  · intro r hr
    exact mem_winners.mp (List.mem_filter.mp (hwinner r hr)).1
  · rw [images_unsized_iff howner hnew (hrows.trans hafter), ImageOutcome.changed_eq_false,
      ← hreplaced, ← hstale, ← List.length_eq_zero_iff, ← hinserted]
    rfl

end Images

/-! ## Tags -/

section Tags

variable {answers : TagAnswers} {id : Int} {wanted : List Tag} {s s' t : Store}

theorem missingTags_of_complete (hfound : ∀ r ∈ s.tags, answers.found r = true) :
    missingTags (foundTags answers wanted s) wanted = wanted.filter fun t => !hasTag s.tags t := by
  apply List.filter_congr
  intro t ht
  congr 1
  rw [Bool.eq_iff_iff, Store.hasTag_iff, Store.hasTag_iff]
  constructor
  · rintro ⟨r, hr, htag⟩
    exact ⟨r, (Store.mem_tagRowsOf.mp (List.mem_filter.mp hr).1).1, htag⟩
  · rintro ⟨r, hr, rfl⟩
    exact ⟨r, List.mem_filter.mpr ⟨Store.mem_tagRowsOf.mpr ⟨hr, ht⟩, hfound r hr⟩, rfl⟩

/-- A pass over tags is told by the rows of tags and links alone. -/
theorem TagDiff.of_rows {added : List TagRow} {linked : List LinkRow} {o : TagOutcome}
    (htags : t.tags = s.tags) (hlinks : t.links = s.links)
    (h : TagDiff answers id wanted t s' added linked o) :
    TagDiff answers id wanted s s' added linked o where
  tags := htags ▸ h.tags
  numbers := htags ▸ h.numbers
  order := htags ▸ h.order
  links := htags ▸ hlinks ▸ h.links
  fresh := hlinks ▸ h.fresh
  deleted := htags ▸ hlinks ▸ h.deleted
  inserted := h.inserted
  upserted := htags ▸ h.upserted
  changed := htags ▸ hlinks ▸ h.changed

theorem tagDiff (hs : s.Sound) (hwanted : wanted.Nodup)
    (htags : s'.tags = (s.afterTags answers id wanted).tags)
    (hlinks : s'.links = (s.afterTags answers id wanted).links) :
    ∃ added linked,
      TagDiff answers id wanted s s' added linked (tagOutcome answers id wanted s) := by
  obtain ⟨added, hafter, hnumbers, horder⟩ := s.afterTags_added answers id hwanted
  let linked := (freshIds answers id wanted s).map (LinkRow.mk id)
  have hnewlinks : ∀ l ∈ linked, l ∉ s.links := by
    intro l hl
    obtain ⟨n, hn, rfl⟩ := List.mem_map.mp hl
    exact Store.freshIds_not_linked answers id wanted hs.tag_ids hn
  have hstale := s.staleLinks_length answers id wanted hs
  have hinserted : (freshIds answers id wanted s).length = linked.length :=
    (List.length_map _).symm
  have hupserted : (∀ r ∈ s.tags, answers.found r = true) →
      (tagOutcome answers id wanted s).upserted = added.length := by
    intro hfound
    rw [tagOutcome, missingTags_of_complete hfound, ← horder, List.length_map]
  have hall := s.afterTags_links answers id wanted hs
  refine ⟨added, linked, htags.trans hafter, hnumbers, horder, hlinks.trans hall, ?_, hstale,
    hinserted, hupserted, ?_⟩
  · intro l hl
    refine ⟨hnewlinks l hl, ?_⟩
    obtain ⟨n, hn, rfl⟩ := List.mem_map.mp hl
    obtain ⟨r, hr, hid, hmem⟩ := mem_freshIds hn
    exact ⟨rfl, r, by rwa [htags, afterTags_tags], hid, hmem⟩
  · intro hfound
    have hzero : (tagOutcome answers id wanted s).inserted = 0 ↔ linked = [] := by
      rw [← List.length_eq_zero_iff, ← hinserted]
      rfl
    have hsame : s'.tags = s.tags ↔ added = [] := by
      rw [htags, hafter, List.append_right_eq_self]
    rw [hsame, hlinks, hall, edited_eq_iff hnewlinks, TagOutcome.changed_eq_false,
      hupserted hfound, hzero, List.length_eq_zero_iff, ← hstale]
    constructor
    · rintro ⟨hadded, hlinked, hdeleted⟩
      exact ⟨hadded, hdeleted, hlinked⟩
    · rintro ⟨hadded, hdeleted, hlinked⟩
      exact ⟨hadded, hlinked, hdeleted⟩

end Tags

/-! ## Reconciliations -/

/-- What a reconciliation has done to the rows of two stores, collection by collection. -/
structure Reconciliation.Minimal (p : Reconciliation) (s s' : Store) (r : ArchiveOutcome) :
    Prop where
  sources : ∀ xs, p.metadata.sources = some xs → ∃ o added, r.sources = some o ∧
    SourceDiff p.archive p.merge (normalizeSources p.context.settings.sourceRules xs) s s' added o
  images : ∀ is, p.metadata.images = some is → ∃ o added, r.images = some o ∧
    ImageDiff p.archive is s s' added o
  tags : ∀ ts, p.metadata.tags = some ts → ∃ o added linked, r.tags = some o ∧
    TagDiff p.context.answers p.archive (normalizeTags p.context.settings.tagRules ts) s s'
      added linked o
  no_sources : p.metadata.sources = none → r.sources = none ∧ s'.sources = s.sources
  no_images : p.metadata.images = none → r.images = none ∧ s'.images = s.images
  no_tags : p.metadata.tags = none → r.tags = none ∧ s'.tags = s.tags ∧ s'.links = s.links

namespace Reconciliation

variable {p : Reconciliation} {w u : Workspace} {s : Store} {r : ArchiveOutcome}

theorem Returns.minimal (hs : s.Sound) (h : p.Returns w s r u) :
    p.Minimal s (reconciled p.context.answers p.options p.archive p.metadata s) r := by
  obtain ⟨row, hrow, w', v, -, -, hdone⟩ := h.stored
  let after := reconciled p.context.answers p.options p.archive p.metadata s
  have hsourced : (sourced p.options p.archive p.metadata s).Sound :=
    hs.sourced (Store.row?_hasArchive hrow) _ _
  obtain ⟨-, -, htags, hlinks⟩ := sourced_rest p.options p.archive p.metadata s
  obtain ⟨-, -, himages⟩ :=
    tagged_rest p.context.answers p.options p.archive p.metadata s
  obtain ⟨-, hsources', htags', hlinks'⟩ :=
    reconciled_rest p.context.answers p.options p.archive p.metadata s
  rw [hdone.outcome]
  constructor
  · intro xs hm
    have hrows : after.sources =
        (s.afterSources p.archive p.options.sourceRules p.options.mergeSources xs).sources := by
      rw [hsources', sourced, hm]
    obtain ⟨added, hdiff⟩ := sourceDiff hrows
    exact ⟨_, added, congrArg (Option.map _) hm, hdiff⟩
  · intro is hm
    have hrows : after.images =
        ((tagged p.context.answers p.options p.archive p.metadata s).afterImages
          p.archive is).images := by
      simp only [after, reconciled, hm]
    let removed :=
      removedFor p.options (some p.context.files) p.archive row.hash is s w'.tree
    obtain ⟨added, hdiff⟩ := imageDiff himages hrows removed.1
    exact ⟨_, added, congrArg (Option.map _) hm, hdiff⟩
  · intro ts hm
    simp only [tagged, hm] at htags' hlinks'
    obtain ⟨added, linked, hdiff⟩ :=
      tagDiff hsourced (normalizeTags_nodup _ _) htags' hlinks'
    exact ⟨_, added, linked, congrArg (Option.map _) hm, hdiff.of_rows htags hlinks⟩
  · intro hm
    exact ⟨congrArg (Option.map _) hm, reconciled_no_sources _ _ _ _ hm⟩
  · intro hm
    exact ⟨congrArg (Option.map _) hm, reconciled_no_images _ _ _ _ hm⟩
  · intro hm
    exact ⟨congrArg (Option.map _) hm, reconciled_no_tags _ _ _ _ hm⟩

end Reconciliation

/-- A reconciliation that returns has taken out, rewritten and added the rows that it had to
and no others, and tells what it has done. -/
theorem Job.run_minimal {job : Job} {p : Reconciliation} {w u : Workspace} {s : Store}
    {r : Returned} (hs : s.Reachable) (hp : job.reconciliation? = some p)
    (h : job.run (w.closedOn s) = .ok r u) :
    ∃ s', u.unit = .closed s' ∧ p.Minimal s s' (r.outcome p.archive) := by
  have hreturns := Reconciliation.returns_of_run hp h
  exact ⟨_, hreturns.unit, hreturns.minimal hs.sound⟩

/-- Of an archive that holds things already, a source, a page and a tag go, others come, and a page
gets another file name. -/
theorem Job.renewed_minimal : ∃ r u s',
    Job.run (.reconcile .sample 1 false false .renewed) (Workspace.closedOn {} .filled) = .ok r u ∧
      u.unit = .closed s' ∧
      Reconciliation.Minimal ⟨.sample, 1, false, false, .renewed⟩ .filled s' (r.outcome 1) ∧
      (∃ o, (r.outcome 1).sources = some o ∧ o.deleted = 1 ∧ o.inserted = 1) ∧
      (∃ o, (r.outcome 1).images = some o ∧ o.deleted = 1 ∧ o.updated = 1 ∧ o.inserted = 1) ∧
      ∃ o, (r.outcome 1).tags = some o ∧ o.deleted = 1 ∧ o.upserted = 1 := by
  obtain ⟨o, u, hreturns⟩ := Service.filled_returns
  have hrun : Job.run (.reconcile .sample 1 false false .renewed)
      (Workspace.closedOn {} .filled) = .ok (.all o) u := Work.map_eq_ok.mpr ⟨o, hreturns, rfl⟩
  obtain ⟨s', hunit, hminimal⟩ := run_minimal Store.filled_reachable rfl hrun
  obtain ⟨sources, newSources, hsources, hsourceDiff⟩ := hminimal.sources _ rfl
  obtain ⟨images, newImages, himages, himageDiff⟩ := hminimal.images _ rfl
  obtain ⟨tags, newTags, newLinks, htags, htagDiff⟩ := hminimal.tags _ rfl
  have hnewSources := congrArg List.length hsourceDiff.order
  have hnewImages := congrArg List.length himageDiff.order
  have hnewTags := congrArg List.length htagDiff.order
  rw [List.length_map] at hnewSources hnewImages hnewTags
  refine ⟨_, u, s', hrun, hunit, hminimal, ⟨sources, hsources, hsourceDiff.deleted, ?_⟩,
    ⟨images, himages, himageDiff.deleted.trans (by decide), himageDiff.updated.trans (by decide),
      ?_⟩, tags, htags, htagDiff.deleted.trans (by decide), ?_⟩
  · exact (hsourceDiff.inserted.trans hnewSources).trans (by decide)
  · exact (himageDiff.inserted.trans hnewImages).trans (by decide)
  · exact ((htagDiff.upserted fun _ _ => rfl).trans hnewTags).trans (by decide)

end GalleryCatalog
