import Mathlib.Data.List.Nodup
import Mathlib.Tactic.SplitIfs
import GalleryCatalog.Proofs.SoundStore

/-!
# What becomes of rows

A pass takes rows out of its table, writes others over in place, and adds new rows at the
end, each numbered above all rows that the table holds by then. So a table after a pass is
an equation: what was kept, in the old order, and then what is new.
-/

set_option autoImplicit false

namespace GalleryCatalog

/-- Rows came into a table one after another, each under a number above all those that the
table held by then. -/
def Numbered : List Int → List Int → Prop
  | _, [] => True
  | held, n :: ns => (∀ k ∈ held, k < n) ∧ Numbered (held ++ [n]) ns

theorem numbered_nextId {held ns : List Int} (h : Numbered (held ++ [nextId held]) ns) :
    Numbered held (nextId held :: ns) :=
  ⟨fun _ hk => lt_nextId hk, h⟩

namespace Reconcile

/-- A row of an archive that a pass over sources takes out. -/
def dropsSource (archive : Int) (merge : Bool) (wanted : List Source) (r : SourceRow) : Bool :=
  r.archive = archive ∧ merge = false ∧ r.source ∉ wanted

/-- A row of an archive whose page is not incoming. -/
def dropsPage (archive : Int) (incoming : List Image) (r : ImageRow) : Bool :=
  r.archive = archive ∧ ∀ i ∈ incoming, i.page ≠ r.page

/-- A row of an archive with the winning image put over it, if its page has one. -/
def overwritten (archive : Int) (incoming : List Image) (r : ImageRow) : ImageRow :=
  if r.archive = archive then
    match winner? incoming r.page with
    | some i => r.updated i
    | none => r
  else r

/-- A link of an archive to one of the rows whose tag is not wanted. -/
def dropsLink (archive : Int) (wanted : List Tag) (rows : List TagRow) (l : LinkRow) : Bool :=
  l.archive = archive ∧ ∃ r ∈ rows, r.id = l.tag ∧ r.tag ∉ wanted

theorem overwritten_key (archive : Int) (incoming : List Image) (r : ImageRow) :
    (overwritten archive incoming r).id = r.id ∧
      (overwritten archive incoming r).archive = r.archive ∧
      (overwritten archive incoming r).page = r.page := by
  unfold overwritten
  split_ifs
  · split <;> exact ⟨rfl, rfl, rfl⟩
  · exact ⟨rfl, rfl, rfl⟩

theorem dropsPage_eq {archive : Int} {incoming : List Image} {r : ImageRow}
    (ha : r.archive = archive) :
    dropsPage archive incoming r = !(winner? incoming r.page).isSome := by
  have hnone : (∀ i ∈ incoming, i.page ≠ r.page) ↔ winner? incoming r.page = none :=
    winner?_eq_none.symm
  simp only [dropsPage, ha, true_and, hnone]
  cases winner? incoming r.page <;> simp

end Reconcile

open Reconcile

namespace Store

/-! ## Rows of sources -/

theorem withoutSources_rows (archive : Int) (xs : List Source) (s : Store) :
    (xs.foldl (withoutSource archive) s).sources =
      s.sources.filter fun r => !(decide (r.archive = archive) && xs.contains r.source) := by
  induction xs generalizing s with
  | nil => simp
  | cons x xs ih =>
    rw [List.foldl_cons, ih, withoutSource, List.filter_filter]
    apply List.filter_congr
    intro r _
    by_cases ha : r.archive = archive <;> by_cases hx : r.source = x <;> simp [ha, hx]

theorem withSources_rows (archive : Int) (xs : List Source) (s : Store)
    (hnamed : ∀ x ∈ xs, isNamed x = true) :
    ∃ added, (xs.foldl (withSource archive) s).sources = s.sources ++ added ∧
      Numbered (s.sources.map SourceRow.id) (added.map SourceRow.id) ∧
      (∀ r ∈ added, r.archive = archive) ∧ added.map SourceRow.source = xs := by
  induction xs generalizing s with
  | nil => exact ⟨[], by simp, trivial, by simp, rfl⟩
  | cons x xs ih =>
    let row : SourceRow := ⟨nextId (s.sources.map (·.id)), archive, x.name.getD "", x.url⟩
    have hrow : row.source = x := by
      rcases x with ⟨_ | name, url⟩
      · have hno := hnamed ⟨none, url⟩ (by simp)
        simp [isNamed, Source.givenName] at hno
      · rfl
    have hstep : (s.withSource archive x).sources = s.sources ++ [row] := rfl
    obtain ⟨added, hrows, hnumbers, harchive, hsources⟩ :=
      ih (s.withSource archive x) fun y hy => hnamed y (by simp [hy])
    refine ⟨row :: added, ?_, ?_, ?_, ?_⟩
    · rw [List.foldl_cons, hrows, hstep, List.append_assoc, List.singleton_append]
    · rw [hstep, List.map_append] at hnumbers
      exact numbered_nextId hnumbers
    · simpa [row] using harchive
    · rw [List.map_cons, hrow, hsources]

/-- The rows of sources after a pass are the ones that were not dropped and then those of
fresh sources with a name. -/
theorem afterSources_rows (archive : Int) (rules : List SourceRule) (merge : Bool)
    (incoming : List Source) (s : Store) :
    let wanted := normalizeSources rules incoming
    let kept := s.sources.filter fun r => !dropsSource archive merge wanted r
    ∃ added, (s.afterSources archive rules merge incoming).sources = kept ++ added ∧
      Numbered (kept.map SourceRow.id) (added.map SourceRow.id) ∧
      (∀ r ∈ added, r.archive = archive) ∧
      added.map SourceRow.source =
        (freshSources wanted (s.sourcesOf archive)).filter isNamed := by
  intro wanted kept
  let stale := staleSources merge wanted (s.sourcesOf archive)
  have hkept : (stale.foldl (withoutSource archive) s).sources = kept := by
    rw [withoutSources_rows]
    apply List.filter_congr
    intro r hr
    by_cases ha : r.archive = archive
    · have hstored : r.source ∈ s.sourcesOf archive := mem_sourcesOf.mpr ⟨r, hr, ha, rfl⟩
      cases merge <;> simp [stale, staleSources, dropsSource, ha, hstored]
    · simp [dropsSource, ha]
  obtain ⟨added, hrows, hnumbers, harchive, hsources⟩ := withSources_rows archive
    ((freshSources wanted (s.sourcesOf archive)).filter isNamed)
    (stale.foldl (withoutSource archive) s) fun x hx => (List.mem_filter.mp hx).2
  rw [hkept] at hrows hnumbers
  exact ⟨added, hrows, hnumbers, harchive, hsources⟩

/-! ## Rows of images -/

/-- The row that comes with an image whose page has none. -/
def broughtRow (archive : Int) (s : Store) (i : Image) : List ImageRow :=
  if s.images.any (·.isPage archive i.page) then []
  else [⟨nextId (s.images.map (·.id)), archive, i.page, i.filename, i.width, i.height⟩]

theorem broughtRow_archive {archive : Int} {s : Store} {i : Image} {r : ImageRow}
    (h : r ∈ s.broughtRow archive i) : r.archive = archive ∧ r.page = i.page := by
  unfold broughtRow at h
  split_ifs at h
  · simp at h
  · obtain rfl := List.mem_singleton.mp h
    exact ⟨rfl, rfl⟩

/-- A row with an image put over it, if the image is for its page. -/
def putOn (archive : Int) (i : Image) (r : ImageRow) : ImageRow :=
  if r.isPage archive i.page then r.updated i else r

theorem putOn_key (archive : Int) (i : Image) (r : ImageRow) :
    (putOn archive i r).id = r.id ∧ (putOn archive i r).archive = r.archive ∧
      (putOn archive i r).page = r.page := by
  unfold putOn
  split_ifs <;> exact ⟨rfl, rfl, rfl⟩

theorem withImage_rows (archive : Int) (s : Store) (i : Image) :
    (s.withImage archive i).images =
      s.images.map (putOn archive i) ++ s.broughtRow archive i := by
  unfold withImage putImage broughtRow
  cases hfind : s.images.find? (·.isPage archive i.page) with
  | some old =>
    have hany : s.images.any (·.isPage archive i.page) = true :=
      List.any_eq_true.mpr ⟨old, List.mem_of_find?_eq_some hfind, List.find?_some hfind⟩
    simp [hany, putOn]
  | none =>
    have hnone : ∀ r ∈ s.images, ¬ r.isPage archive i.page = true :=
      List.find?_eq_none.mp hfind
    have hany : s.images.any (·.isPage archive i.page) = false := by simpa using hnone
    have hsame : ∀ r ∈ s.images, putOn archive i r = r := fun r hr => if_neg (hnone r hr)
    rw [List.map_congr_left hsame, List.map_id']
    simp only [hany]
    rfl

theorem putOn_ids (archive : Int) (i : Image) (rows : List ImageRow) :
    (rows.map (putOn archive i)).map ImageRow.id = rows.map ImageRow.id := by
  rw [List.map_map]
  exact List.map_congr_left fun r _ => (putOn_key archive i r).1

theorem withImage_hasPage {archive page : Int} {i : Image} (h : page ≠ i.page) (s : Store) :
    (s.withImage archive i).images.any (·.isPage archive page) =
      s.images.any (·.isPage archive page) := by
  have hold : (fun r : ImageRow => r.isPage archive page) ∘ putOn archive i =
      fun r => r.isPage archive page := by
    funext r
    obtain ⟨-, ha, hp⟩ := putOn_key archive i r
    simp [ImageRow.isPage, ha, hp]
  have hnew : (s.broughtRow archive i).any (·.isPage archive page) = false := by
    rw [List.any_eq_false]
    intro r hr hpage
    exact h ((isPage_iff.mp hpage).2.symm.trans (broughtRow_archive hr).2)
  rw [withImage_rows, List.any_append, List.any_map, hold, hnew, Bool.or_false]

/-- A row with the image for its page put over it, if there is one among some images. -/
def putOver (archive : Int) (images : List Image) (r : ImageRow) : ImageRow :=
  if r.archive = archive then
    match images.find? fun i => i.page = r.page with
    | some i => r.updated i
    | none => r
  else r

section PutOver

variable {archive : Int} {i : Image} {images : List Image}
  (hi : ∀ j ∈ images, j.page ≠ i.page)
include hi

theorem putOver_putOn (r : ImageRow) :
    putOver archive images (putOn archive i r) = putOver archive (i :: images) r := by
  by_cases hpage : r.isPage archive i.page = true
  · obtain ⟨ha, hp⟩ := isPage_iff.mp hpage
    have hnone : images.find? (fun j => j.page = i.page) = none := by simpa using hi
    have hkey : (r.updated i).archive = archive ∧ (r.updated i).page = i.page := ⟨ha, hp⟩
    simp [putOver, putOn, hpage, ha, hp, hkey.1, hkey.2, hnone]
  · by_cases ha : r.archive = archive
    · have hp : ¬ i.page = r.page := fun hp => hpage (isPage_iff.mpr ⟨ha, hp.symm⟩)
      simp [putOver, putOn, hpage, ha, hp]
    · simp [putOver, putOn, hpage, ha]

theorem putOver_broughtRow (s : Store) :
    (s.broughtRow archive i).map (putOver archive images) = s.broughtRow archive i := by
  have hsame : ∀ r ∈ s.broughtRow archive i, putOver archive images r = r := by
    intro r hr
    obtain ⟨ha, hp⟩ := broughtRow_archive hr
    have hnone : images.find? (fun j => j.page = r.page) = none := by simpa [hp] using hi
    simp [putOver, ha, hnone]
  rw [List.map_congr_left hsame, List.map_id']

theorem withImage_putOver (s : Store) :
    (s.withImage archive i).images.map (putOver archive images) =
      s.images.map (putOver archive (i :: images)) ++ s.broughtRow archive i := by
  rw [withImage_rows, List.map_append, List.map_map, putOver_broughtRow hi]
  congr 1
  exact List.map_congr_left fun r _ => putOver_putOn hi r

end PutOver

/-- Images for different pages go over the rows of their pages, and the others come into rows
at the end, in their order. -/
theorem withImages_rows (archive : Int) (images : List Image) (s : Store)
    (hpages : (images.map Image.page).Nodup) :
    ∃ added, (images.foldl (withImage archive) s).images =
        s.images.map (putOver archive images) ++ added ∧
      Numbered (s.images.map ImageRow.id) (added.map ImageRow.id) ∧
      (∀ r ∈ added, r.archive = archive) ∧
      added.map ImageRow.image =
        images.filter fun i => !s.images.any (·.isPage archive i.page) := by
  induction images generalizing s with
  | nil =>
    have hid : s.images.map (putOver archive []) = s.images := by
      rw [List.map_congr_left (g := id) fun r _ => by simp [putOver], List.map_id]
    exact ⟨[], by simp [hid], trivial, by simp, rfl⟩
  | cons i images ih =>
    obtain ⟨hfirst, hrest⟩ := List.nodup_cons.mp hpages
    have hi : ∀ j ∈ images, j.page ≠ i.page := fun j hj hp =>
      hfirst (hp ▸ List.mem_map_of_mem hj)
    obtain ⟨added, hrows, hnumbers, harchive, himages⟩ := ih (s.withImage archive i) hrest
    rw [withImage_putOver hi] at hrows
    rw [withImage_rows, List.map_append, putOn_ids] at hnumbers
    have hlater : added.map ImageRow.image =
        images.filter fun j => !s.images.any (·.isPage archive j.page) := by
      rw [himages]
      exact List.filter_congr fun j hj => by rw [withImage_hasPage (hi j hj)]
    refine ⟨s.broughtRow archive i ++ added, ?_, ?_, ?_, ?_⟩
    · rw [List.foldl_cons, hrows, List.append_assoc]
    · unfold broughtRow at hnumbers ⊢
      split_ifs at hnumbers ⊢ with hany
      · simpa using hnumbers
      · exact numbered_nextId hnumbers
    · intro r hr
      rcases List.mem_append.mp hr with hnew | hrow
      · exact (broughtRow_archive hnew).1
      · exact harchive r hrow
    · rw [List.map_append, hlater, List.filter_cons]
      unfold broughtRow
      split_ifs with hany hpage hpage
      · simp [hany] at hpage
      · rfl
      · rfl
      · simp [hany] at hpage

theorem putOver_winners (archive : Int) (incoming : List Image) :
    putOver archive (winners incoming) = overwritten archive incoming := by
  funext r
  simp only [putOver, overwritten, winners_find]

section Stale

variable {archive : Int} {incoming : List Image} {s : Store}

theorem stored_stalePages {r : ImageRow} (hr : r ∈ s.images) (ha : r.archive = archive) :
    r.page ∈ stalePages (winners incoming) (s.imagesOf archive) ↔
      dropsPage archive incoming r = true := by
  have hshown : s.page? archive r.page ≠ none := fun hnone =>
    page?_none.mp hnone r.image (mem_imagesOf.mpr ⟨r, hr, ha, rfl⟩) rfl
  rw [mem_stalePages, dropsPage_eq ha]
  simp [hshown]

theorem withoutPages_overwritten :
    (s.images.map (overwritten archive incoming)).filter (fun r => ¬ (r.archive = archive ∧
        (stalePages (winners incoming) (s.imagesOf archive)).contains r.page)) =
      (s.images.filter fun r => !dropsPage archive incoming r).map
        (overwritten archive incoming) := by
  rw [List.filter_map]
  congr 1
  apply List.filter_congr
  intro r hr
  obtain ⟨-, harchive, hpage⟩ := overwritten_key archive incoming r
  by_cases ha : r.archive = archive
  · simp only [Function.comp_apply, harchive, hpage, ha, true_and, List.contains_iff_mem,
      stored_stalePages hr ha]
    simp
  · simp [harchive, ha, dropsPage]

theorem withoutPages_winners {rows : List ImageRow}
    (h : ∀ r ∈ rows, r.image ∈ winners incoming) :
    rows.filter (fun r => ¬ (r.archive = archive ∧
        (stalePages (winners incoming) (s.imagesOf archive)).contains r.page)) = rows := by
  rw [List.filter_eq_self]
  intro r hr
  have hwinner : winner? incoming r.page ≠ none := by
    have hwins : winner? incoming r.page = some r.image := mem_winners.mp (h r hr)
    simp [hwins]
  simp [mem_stalePages, hwinner]

end Stale

/-- The rows of images after a pass are the ones that were not dropped, each with the winner
for its page put over it, and then those of new pages. -/
theorem afterImages_rows (archive : Int) (incoming : List Image) (s : Store) :
    let kept := s.images.filter fun r => !dropsPage archive incoming r
    ∃ added, (s.afterImages archive incoming).images =
        kept.map (overwritten archive incoming) ++ added ∧
      Numbered (s.images.map ImageRow.id) (added.map ImageRow.id) ∧
      (∀ r ∈ added, r.archive = archive) ∧
      added.map ImageRow.image =
        (winners incoming).filter fun i => !s.images.any (·.isPage archive i.page) := by
  intro kept
  obtain ⟨added, hrows, hnumbers, harchive, himages⟩ :=
    withImages_rows archive (winners incoming) s (winners_pages_nodup incoming)
  have hwinners : ∀ r ∈ added, r.image ∈ winners incoming := by
    intro r hr
    have hmem : r.image ∈ added.map ImageRow.image := List.mem_map_of_mem hr
    rw [himages] at hmem
    exact (List.mem_filter.mp hmem).1
  refine ⟨added, ?_, hnumbers, harchive, himages⟩
  unfold afterImages withoutPages
  dsimp only
  rw [hrows, putOver_winners, List.filter_append, withoutPages_overwritten,
    withoutPages_winners hwinners]

/-! ## Rows of tags and links -/

theorem hasTag_iff {rows : List TagRow} {t : Tag} :
    hasTag rows t = true ↔ ∃ r ∈ rows, r.tag = t := by
  simp [hasTag]

theorem withTags_rows (tags : List Tag) (htags : tags.Nodup) (s : Store) :
    ∃ added, (tags.foldl withTag s).tags = s.tags ++ added ∧
      Numbered (s.tags.map TagRow.id) (added.map TagRow.id) ∧
      added.map TagRow.tag = tags.filter fun t => !hasTag s.tags t := by
  induction tags generalizing s with
  | nil => exact ⟨[], by simp, trivial, rfl⟩
  | cons t tags ih =>
    obtain ⟨hfirst, hrest⟩ := List.nodup_cons.mp htags
    obtain ⟨added, hrows, hnumbers, hadded⟩ := ih hrest (s.withTag t)
    rcases withTag_tags s t with ⟨hsame, hrow⟩ | ⟨hnew, hnone⟩
    · have hhas : hasTag s.tags t = true := hasTag_iff.mpr hrow
      rw [hsame] at hrows hnumbers hadded
      exact ⟨added, hrows, hnumbers, by simpa [List.filter_cons, hhas] using hadded⟩
    · have hhas : hasTag s.tags t = false := by
        rw [Bool.eq_false_iff]
        intro hyes
        obtain ⟨r, hr, htag⟩ := hasTag_iff.mp hyes
        exact hnone r hr htag
      have hlater : tags.filter (fun u => !hasTag (s.withTag t).tags u) =
          tags.filter fun u => !hasTag s.tags u := by
        apply List.filter_congr
        intro u hu
        have hne : ¬ t = u := fun h => hfirst (h ▸ hu)
        rw [hnew]
        simp [hasTag, hne]
      rw [hlater] at hadded
      rw [hnew] at hrows hnumbers
      rw [List.map_append] at hnumbers
      let row : TagRow := ⟨nextId (s.tags.map TagRow.id), t⟩
      refine ⟨row :: added, ?_, numbered_nextId hnumbers, ?_⟩
      · rw [List.foldl_cons, hrows, List.append_assoc, List.singleton_append]
      · simp [row, hhas, hadded]

theorem withoutLinks_rows (archive : Int) (rows : List TagRow) (s : Store) :
    (rows.foldl (withoutLink archive) s).links =
      s.links.filter fun l => !(decide (l.archive = archive) && rows.any (·.id = l.tag)) := by
  induction rows generalizing s with
  | nil => simp
  | cons r rows ih =>
    rw [List.foldl_cons, ih, withoutLink, List.filter_filter]
    apply List.filter_congr
    rintro ⟨a, n⟩ _
    by_cases ha : a = archive
    · by_cases hn : n = r.id
      · simp [ha, hn]
      · simp [ha, hn, Ne.symm hn]
    · simp [ha]

section Tags

variable (answers : TagAnswers) (archive : Int) {wanted : List Tag} {s : Store}

/-- The rows of tags after a pass are the old ones and then those of wanted tags that had none,
whatever the look-up has shown. -/
theorem afterTags_added (hwanted : wanted.Nodup) :
    ∃ added, (s.afterTags answers archive wanted).tags = s.tags ++ added ∧
      Numbered (s.tags.map TagRow.id) (added.map TagRow.id) ∧
      added.map TagRow.tag = wanted.filter fun t => !hasTag s.tags t := by
  let missing := missingTags (foundTags answers wanted s) wanted
  have hmissing : missing.filter (fun t => !hasTag s.tags t) =
      wanted.filter fun t => !hasTag s.tags t := by
    simp only [missing, missingTags, List.filter_filter]
    apply List.filter_congr
    intro t _
    by_cases hstored : hasTag s.tags t = true
    · simp [hstored]
    · have hnot : hasTag (foundTags answers wanted s) t = false := by
        rw [Bool.eq_false_iff]
        intro hfound
        obtain ⟨r, hr, htag⟩ := hasTag_iff.mp hfound
        have hrow := (mem_tagRowsOf.mp (List.mem_filter.mp hr).1).1
        exact hstored (hasTag_iff.mpr ⟨r, hrow, htag⟩)
      simp [hstored, hnot]
  obtain ⟨added, hrows, hnumbers, hadded⟩ := withTags_rows missing (hwanted.filter _) s
  rw [hmissing] at hadded
  exact ⟨added, (afterTags_tags answers archive wanted s).trans hrows, hnumbers, hadded⟩

variable (wanted) (hs : s.Sound)
include hs

/-- The links of a sound store lead to the same rows when tags have been added. -/
theorem upserted_linkedTag? {l : LinkRow} (hl : l ∈ s.links) :
    ∃ r ∈ s.tags, r.id = l.tag ∧ (upsertedTags answers wanted s).linkedTag? l = some r := by
  obtain ⟨r, hr, hid⟩ := List.mem_map.mp (hs.link_tags l hl)
  refine ⟨r, hr, hid, ?_⟩
  rw [linkedTag?_eq_some (upsertedTags_ids answers wanted hs.tag_ids)]
  exact ⟨withTags_subset _ s hr, hid⟩

theorem dropsLink_iff {l : LinkRow} (hl : l ∈ s.links) :
    dropsLink archive wanted s.tags l = true ↔ l.archive = archive ∧
      ∃ r, (upsertedTags answers wanted s).linkedTag? l = some r ∧ r.tag ∉ wanted := by
  obtain ⟨r, hr, hid, hlinked⟩ := upserted_linkedTag? answers wanted hs hl
  simp only [dropsLink, decide_eq_true_eq, hlinked, Option.some.injEq]
  constructor
  · rintro ⟨ha, r', hr', hid', hunwanted⟩
    obtain rfl : r = r' := List.inj_on_of_nodup_map hs.tag_ids hr hr' (hid.trans hid'.symm)
    exact ⟨ha, r, rfl, hunwanted⟩
  · rintro ⟨ha, _, rfl, hunwanted⟩
    exact ⟨ha, r, hr, hid, hunwanted⟩

/-- The links after a pass are the ones that were not dropped and then those to rows of fresh
tags. -/
theorem afterTags_links :
    (s.afterTags answers archive wanted).links =
      (s.links.filter fun l => !dropsLink archive wanted s.tags l) ++
        (freshIds answers archive wanted s).map (LinkRow.mk archive) := by
  unfold afterTags
  rw [withLinks_links, withoutLinks_rows, upsertedTags_links]
  congr 1
  apply List.filter_congr
  intro l hl
  congr 1
  rw [Bool.eq_iff_iff, dropsLink_iff answers archive wanted hs hl]
  simp only [Bool.and_eq_true, decide_eq_true_eq, List.any_eq_true, staleLinks, List.mem_filter,
    mem_linksOf, upsertedTags_links, Bool.not_eq_true', List.contains_eq_mem,
    decide_eq_false_iff_not]
  constructor
  · rintro ⟨ha, r, ⟨⟨l', hl', -, hlinked'⟩, hunwanted⟩, hid⟩
    have hids := upsertedTags_ids answers wanted hs.tag_ids
    obtain ⟨hr, -⟩ := (linkedTag?_eq_some hids).mp hlinked'
    exact ⟨ha, r, (linkedTag?_eq_some hids).mpr ⟨hr, hid⟩, hunwanted⟩
  · rintro ⟨ha, r, hlinked, hunwanted⟩
    have hids := upsertedTags_ids answers wanted hs.tag_ids
    exact ⟨ha, r, ⟨⟨l, hl, ha, hlinked⟩, hunwanted⟩, ((linkedTag?_eq_some hids).mp hlinked).2⟩

theorem staleLinks_length :
    (staleLinks wanted ((upsertedTags answers wanted s).linksOf archive)).length =
      s.links.countP (dropsLink archive wanted s.tags) := by
  let upserted := upsertedTags answers wanted s
  let unwanted (r : TagRow) : Bool := !wanted.contains r.tag
  calc (staleLinks wanted (upserted.linksOf archive)).length
      = (upserted.linksOf archive).countP unwanted := List.countP_eq_length_filter.symm
    _ = ((s.links.filter fun l => l.archive = archive).filterMap upserted.linkedTag?).countP
          unwanted := by
        unfold linksOf
        rw [(List.mergeSort_perm _ _).countP_eq, upsertedTags_links]
    _ = s.links.countP (dropsLink archive wanted s.tags) := by
        rw [List.countP_filterMap, List.countP_filter]
        apply List.countP_congr
        intro l hl
        rw [dropsLink_iff answers archive wanted hs hl]
        obtain ⟨r, -, -, hlinked⟩ :=
          upserted_linkedTag? answers wanted hs hl
        simp [upserted, hlinked, unwanted, and_comm]

omit hs in
theorem freshIds_not_linked (hids : (s.tags.map TagRow.id).Nodup) {n : Int}
    (hn : n ∈ freshIds answers archive wanted s) : (⟨archive, n⟩ : LinkRow) ∉ s.links := by
  intro hl
  obtain ⟨t, ht, hid⟩ := List.mem_filterMap.mp hn
  obtain ⟨r, hr, rfl, rfl⟩ := idOf?_eq_some hid
  have hlinked : (upsertedTags answers wanted s).linkedTag? ⟨archive, r.id⟩ = some r :=
    (linkedTag?_eq_some (upsertedTags_ids answers wanted hids)).mpr
      ⟨(knownTags_rows hr).1, rfl⟩
  have hmem : r ∈ (upsertedTags answers wanted s).linksOf archive :=
    mem_linksOf.mpr ⟨_, by rwa [upsertedTags_links], rfl, hlinked⟩
  have hhas := hasTag_iff.mpr ⟨r, hmem, rfl⟩
  simp [freshTags, hhas] at ht

end Tags

end Store

end GalleryCatalog
