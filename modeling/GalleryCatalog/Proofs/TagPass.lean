import Mathlib.Data.List.Nodup
import Mathlib.Tactic.SplitIfs
import GalleryCatalog.Proofs.Normalize
import GalleryCatalog.Proofs.OpenUnit

/-!
# What reconciling tags does

A pass over the tags of an archive gives every missing tag a row, drops the links to
tags that are not wanted and links the wanted ones that were not linked. Rows of tags
are only added, at the end. When it returns, the archive is linked to the wanted tags
and to no others, whatever the look-up has shown. It does not return if there are more
tags to look up, or to give a row, than one statement takes.
-/

set_option autoImplicit false

namespace GalleryCatalog

namespace Store

/-- The store with a row for a tag. -/
def withTag (s : Store) (t : Tag) : Store :=
  (putTag t s).2

def withLink (archive : Int) (s : Store) (tag : Int) : Store :=
  { s with links := s.links ++ [⟨archive, tag⟩] }

/-- The store without the link of an archive to a tag row. -/
def withoutLink (archive : Int) (s : Store) (r : TagRow) : Store :=
  { s with links := s.links.filter fun l => l ≠ ⟨archive, r.id⟩ }

theorem putTags_snd (tags : List Tag) (s : Store) : (putTags tags s).2 = tags.foldl withTag s := by
  induction tags generalizing s with
  | nil => rfl
  | cons t tags ih => exact ih _

/-! ## Rows of tags -/

/-- Of the rows with the text of a wanted tag a look-up takes just what it would take from the whole
table. -/
theorem tagRowsOf_eq (s : Store) (wanted : List Tag) :
    s.tagRowsOf wanted = s.tags.filter fun r => r.tag ∈ wanted := by
  rw [tagRowsOf, tagsLike, List.filter_filter]
  apply List.filter_congr
  intro r _
  by_cases hr : r.tag ∈ wanted
  · have htext : r.tag.composite ∈ wanted.map Tag.composite := List.mem_map_of_mem hr
    simp [hr, htext]
  · simp [hr]

theorem mem_tagRowsOf {s : Store} {wanted : List Tag} {r : TagRow} :
    r ∈ s.tagRowsOf wanted ↔ r ∈ s.tags ∧ r.tag ∈ wanted := by
  simp [tagRowsOf_eq]

/-- The row of a tag is there afterwards, and all rows from before. -/
theorem putTag_row (t : Tag) (s : Store) :
    (putTag t s).1 ∈ (s.withTag t).tags ∧ (putTag t s).1.tag = t := by
  unfold withTag putTag
  split
  next row hrow =>
    exact ⟨List.mem_of_find?_eq_some hrow, by simpa using List.find?_some hrow⟩
  next => simp

theorem withTag_frame (s : Store) (t : Tag) : ∃ rows, s.withTag t = { s with tags := rows } := by
  unfold withTag putTag
  split <;> exact ⟨_, rfl⟩

theorem withTags_frame (tags : List Tag) (s : Store) :
    ∃ rows, tags.foldl withTag s = { s with tags := rows } := by
  induction tags generalizing s with
  | nil => exact ⟨s.tags, rfl⟩
  | cons t tags ih =>
    obtain ⟨rows, hrows⟩ := withTag_frame s t
    rw [List.foldl_cons, hrows]
    exact ih _

theorem withTag_tags (s : Store) (t : Tag) :
    (s.withTag t).tags = s.tags ∧ (∃ r ∈ s.tags, r.tag = t) ∨
      (s.withTag t).tags = s.tags ++ [⟨nextId (s.tags.map (·.id)), t⟩] ∧
        ∀ r ∈ s.tags, r.tag ≠ t := by
  unfold withTag putTag
  split
  next row hrow =>
    exact Or.inl ⟨rfl, row, List.mem_of_find?_eq_some hrow, by simpa using List.find?_some hrow⟩
  next hnone => exact Or.inr ⟨rfl, by simpa using List.find?_eq_none.mp hnone⟩

theorem withTag_subset (s : Store) (t : Tag) : s.tags ⊆ (s.withTag t).tags := by
  rcases withTag_tags s t with ⟨h, -⟩ | ⟨h, -⟩ <;> simp [h]

theorem withTags_subset (tags : List Tag) (s : Store) :
    s.tags ⊆ (tags.foldl withTag s).tags := by
  induction tags generalizing s with
  | nil => exact fun _ h => h
  | cons t tags ih => exact fun r hr => ih (s.withTag t) (withTag_subset s t hr)

theorem putTags_rows {tags : List Tag} {s : Store} {r : TagRow} (h : r ∈ (putTags tags s).1) :
    r ∈ (tags.foldl withTag s).tags ∧ r.tag ∈ tags := by
  induction tags generalizing s with
  | nil => simp [putTags] at h
  | cons t tags ih =>
    have hrows : (putTags (t :: tags) s).1 = (putTag t s).1 :: (putTags tags (s.withTag t)).1 := rfl
    rw [hrows, List.mem_cons] at h
    rcases h with heq | hr
    · obtain ⟨hrow, htag⟩ := putTag_row t s
      rw [heq]
      exact ⟨withTags_subset tags _ hrow, by rw [htag]; exact List.mem_cons_self⟩
    · obtain ⟨hrow, htag⟩ := ih hr
      exact ⟨hrow, List.mem_cons_of_mem t htag⟩

theorem withTags_row {tags : List Tag} {t : Tag} (h : t ∈ tags) (s : Store) :
    ∃ r ∈ (tags.foldl withTag s).tags, r.tag = t := by
  induction tags generalizing s with
  | nil => simp at h
  | cons u tags ih =>
    rcases List.mem_cons.mp h with rfl | ht
    · obtain ⟨hrow, htag⟩ := putTag_row t s
      exact ⟨_, withTags_subset tags _ hrow, htag⟩
    · exact ih ht (s.withTag u)

theorem withTags_ids {tags : List Tag} {s : Store} (h : (s.tags.map TagRow.id).Nodup) :
    ((tags.foldl withTag s).tags.map TagRow.id).Nodup := by
  induction tags generalizing s with
  | nil => exact h
  | cons t tags ih =>
    apply ih
    rcases withTag_tags s t with ⟨heq, -⟩ | ⟨heq, -⟩
    · rwa [heq]
    · rw [heq, List.map_append, List.map_singleton, ← List.concat_eq_append,
        List.nodup_concat]
      exact ⟨nextId_not_mem _, h⟩

/-! ## Links -/

theorem listLinks_ok {archive : Int} (h : fits archive = true) (s : Store) :
    listLinks archive s = .ok (s.linksOf archive) s :=
  Work.requires_ok (by simp [h]) _ s

theorem listLinks_error {archive : Int} (h : ¬ fits archive = true) (s : Store) :
    listLinks archive s = .error .integerOutOfRange s :=
  Work.requires_error (by simp [h]) _ s

theorem mem_linksOf {s : Store} {archive : Int} {r : TagRow} :
    r ∈ s.linksOf archive ↔ ∃ l ∈ s.links, l.archive = archive ∧ s.linkedTag? l = some r := by
  simp [linksOf, and_assoc]

theorem linkedTag?_eq_some {s : Store} (h : (s.tags.map TagRow.id).Nodup) {l : LinkRow}
    {r : TagRow} : s.linkedTag? l = some r ↔ r ∈ s.tags ∧ r.id = l.tag := by
  unfold linkedTag?
  constructor
  · intro hfind
    exact ⟨List.mem_of_find?_eq_some hfind, by simpa using List.find?_some hfind⟩
  · rintro ⟨hr, hid⟩
    cases hfind : s.tags.find? fun r => r.id = l.tag with
    | none => exact absurd hid (by simpa using List.find?_eq_none.mp hfind r hr)
    | some r' =>
      have hid' : r'.id = l.tag := by simpa using List.find?_some hfind
      rw [List.inj_on_of_nodup_map h (List.mem_of_find?_eq_some hfind) hr (hid'.trans hid.symm)]

theorem withLinks_links (archive : Int) (tags : List Int) (s : Store) :
    (tags.foldl (withLink archive) s).links = s.links ++ tags.map (LinkRow.mk archive) := by
  induction tags generalizing s with
  | nil => simp
  | cons n tags ih =>
    rw [List.foldl_cons, ih]
    simp [withLink]

theorem mem_withoutLinks {archive : Int} {rows : List TagRow} {s : Store} {l : LinkRow} :
    l ∈ (rows.foldl (withoutLink archive) s).links ↔
      l ∈ s.links ∧ ∀ r ∈ rows, l ≠ ⟨archive, r.id⟩ := by
  induction rows generalizing s with
  | nil => simp
  | cons r rows ih =>
    rw [List.foldl_cons, ih]
    simp [withoutLink, and_assoc]

theorem withoutLinks_nodup {archive : Int} {rows : List TagRow} {s : Store}
    (h : s.links.Nodup) : (rows.foldl (withoutLink archive) s).links.Nodup := by
  induction rows generalizing s with
  | nil => exact h
  | cons r rows ih => exact ih (h.filter _)

theorem deleteLink_eq_ok {archive : Int} {r : TagRow} {s s' : Store}
    (h : deleteLink archive r.id s = .ok () s') : s' = s.withoutLink archive r := by
  have hmodify := Work.requires_eq_ok h
  exact (EStateM.Result.ok.inj hmodify).2.symm

theorem addLink_eq_ok {archive tag : Int} {s s' : Store} (h : addLink archive tag s = .ok () s') :
    s' = s.withLink archive tag ∧ ⟨archive, tag⟩ ∉ s.links := by
  have hrest := Work.requires_eq_ok h
  rw [Work.get_bind_apply] at hrest
  split_ifs at hrest with hlinked
  · simp at hrest
  · rw [Work.modify_apply, EStateM.Result.ok.injEq] at hrest
    exact ⟨hrest.2.symm, by simpa using hlinked⟩

theorem addLinks_eq_ok {archive : Int} {tags : List Int} {s s' : Store}
    (h : addLinks archive tags s = .ok () s') :
    s' = tags.foldl (withLink archive) s ∧ (s.links.Nodup → s'.links.Nodup) := by
  induction tags generalizing s with
  | nil =>
    obtain ⟨-, rfl⟩ := Work.pure_eq_ok.mp h
    exact ⟨rfl, id⟩
  | cons n tags ih =>
    obtain ⟨_, s₁, hadd, hrest⟩ := Work.bind_eq_ok.mp h
    obtain ⟨rfl, hnodup⟩ := ih hrest
    obtain ⟨rfl, hfresh⟩ := addLink_eq_ok hadd
    refine ⟨rfl, fun hs => hnodup ?_⟩
    rw [withLink, ← List.concat_eq_append, List.nodup_concat]
    exact ⟨hfresh, hs⟩

end Store

/-! ## Batches of tags -/

namespace Store

/-- Why tags are not looked up, if they are not. -/
def lookUpRefusal? (tags : List Tag) : Option StoreError :=
  refusal? ((composites tags).size + 1) []

/-- Why tags are given no row, if they are not. -/
def tagRefusal? (tags : List Tag) : Option StoreError :=
  refusal? (2 * tags.length) []

/-- A look-up has no more texts than tags. -/
theorem composites_size_le (tags : List Tag) : (composites tags).size ≤ tags.length := by
  calc (composites tags).size ≤ (tags.map Tag.composite).length := Std.TreeSet.size_ofList_le
    _ = tags.length := List.length_map _

theorem lookUpRefusal?_eq_none {tags : List Tag} :
    lookUpRefusal? tags = none ↔ (composites tags).size + 1 ≤ parameterLimit := by
  simp [lookUpRefusal?, refusal?_eq_none]

theorem lookUpRefusal?_of_lt {tags : List Tag} (h : parameterLimit < (composites tags).size + 1) :
    lookUpRefusal? tags = some .tooManyParameters :=
  if_pos (Nat.not_le.mpr h)

theorem tagRefusal?_eq_none {tags : List Tag} :
    tagRefusal? tags = none ↔ 2 * tags.length ≤ parameterLimit := by
  simp [tagRefusal?, refusal?_eq_none]

end Store

namespace Repository

theorem findTags_live (wanted : List Tag) (s : Store) :
    findTags wanted (.live s) =
      match Store.lookUpRefusal? wanted with
      | none => .ok (s.tagRowsOf wanted) (.live s)
      | some e => .error e (.live s) := by
  unfold findTags
  split_ifs with hnil
  · have hnone : s.tagRowsOf wanted = [] := by simp [hnil, Store.tagRowsOf_eq]
    rw [hnone, hnil]
    rfl
  · have hrun : Store.findTags wanted s = _ := Work.requires_values _ _ s
    rw [Statement.onView, hrun, Store.lookUpRefusal?]
    cases refusal? ((Store.composites wanted).size + 1) [] <;> rfl

theorem upsertTags_live (tags : List Tag) (s : Store) :
    upsertTags tags (.live s) =
      match Store.tagRefusal? tags with
      | none => .ok (Store.putTags tags s).1 (.live (tags.foldl Store.withTag s))
      | some e => .error e (.live s) := by
  rw [← Store.putTags_snd]
  unfold upsertTags
  split_ifs with hnil
  · subst hnil
    rfl
  · have hrun : Store.upsertTags tags s = _ := Work.requires_values _ _ s
    rw [Statement.onView, hrun, Store.tagRefusal?]
    cases refusal? (2 * tags.length) [] <;> rfl

end Repository

namespace Reconcile

/-- The rows that a look-up of the wanted tags shows. -/
def foundTags (answers : TagAnswers) (wanted : List Tag) (s : Store) : List TagRow :=
  (s.tagRowsOf wanted).filter answers.found

/-- The rows that a pass knows after its look-up and its upsert. -/
def knownTags (answers : TagAnswers) (wanted : List Tag) (s : Store) : List TagRow :=
  foundTags answers wanted s ++
    (Store.putTags (missingTags (foundTags answers wanted s) wanted) s).1.filter answers.upserted

/-- The store in which every tag that the look-up did not show has a row. -/
def upsertedTags (answers : TagAnswers) (wanted : List Tag) (s : Store) : Store :=
  (missingTags (foundTags answers wanted s) wanted).foldl Store.withTag s

/-- The numbers of the rows that a pass links. -/
def freshIds (answers : TagAnswers) (archive : Int) (wanted : List Tag) (s : Store) : List Int :=
  (freshTags wanted ((upsertedTags answers wanted s).linksOf archive)).filterMap
    (idOf? (knownTags answers wanted s))

/-- What a pass over tags counts. -/
def tagOutcome (answers : TagAnswers) (archive : Int) (wanted : List Tag) (s : Store) :
    TagOutcome where
  upserted := (missingTags (foundTags answers wanted s) wanted).length
  inserted := (freshIds answers archive wanted s).length
  deleted := (staleLinks wanted ((upsertedTags answers wanted s).linksOf archive)).length

/-- A pass knows a row for every tag that it links. -/
def Linkable (answers : TagAnswers) (archive : Int) (wanted : List Tag) (s : Store) : Prop :=
  ∀ t ∈ freshTags wanted ((upsertedTags answers wanted s).linksOf archive),
    (idOf? (knownTags answers wanted s) t).isSome

end Reconcile

open Reconcile

/-- The store after a pass over the tags of an archive. -/
def Store.afterTags (answers : TagAnswers) (archive : Int) (wanted : List Tag) (s : Store) :
    Store :=
  let upserted := upsertedTags answers wanted s
  (freshIds answers archive wanted s).foldl (Store.withLink archive)
    ((staleLinks wanted (upserted.linksOf archive)).foldl (Store.withoutLink archive) upserted)

namespace Reconcile

theorem upsertedTags_links (answers : TagAnswers) (wanted : List Tag) (s : Store) :
    (upsertedTags answers wanted s).links = s.links := by
  obtain ⟨rows, hrows⟩ :=
    Store.withTags_frame (missingTags (foundTags answers wanted s) wanted) s
  rw [upsertedTags, hrows]

theorem lookUp_on (answers : TagAnswers) (wanted : List Tag) (w : Workspace) (s : Store) :
    lookUp answers wanted (w.on s) =
      match Store.lookUpRefusal? wanted with
      | none => .ok (foundTags answers wanted s) (w.on s)
      | some e => .error (refused e) (w.on s) := by
  have hrun := Repository.findTags_live wanted s
  cases hrefused : Store.lookUpRefusal? wanted with
  | none =>
    rw [hrefused] at hrun
    exact Work.bind_of_ok (Work.access_live hrun w)
  | some e =>
    rw [hrefused] at hrun
    exact Work.bind_of_error (Work.access_live_error hrun w)

theorem upsert_on (answers : TagAnswers) (tags : List Tag) (w : Workspace) (s : Store) :
    upsert answers tags (w.on s) =
      match Store.tagRefusal? tags with
      | none =>
        .ok ((Store.putTags tags s).1.filter answers.upserted) (w.on (tags.foldl Store.withTag s))
      | some e => .error (refused e) (w.on s) := by
  have hrun := Repository.upsertTags_live tags s
  cases hrefused : Store.tagRefusal? tags with
  | none =>
    rw [hrefused] at hrun
    exact Work.bind_of_ok (Work.access_live hrun w)
  | some e =>
    rw [hrefused] at hrun
    exact Work.bind_of_error (Work.access_live_error hrun w)

theorem listLinks_on {archive : Int} (h : fits archive = true) (w : Workspace) (s : Store) :
    Work.access (Repository.links archive) (w.on s) = .ok (s.linksOf archive) (w.on s) :=
  Work.access_ok (Store.listLinks_ok h s) w

theorem listLinks_error {archive : Int} (h : ¬ fits archive = true) (w : Workspace) (s : Store) :
    Work.access (Repository.links archive) (w.on s) = .error outOfRange (w.on s) :=
  Work.access_error (Store.listLinks_error h s) w

theorem deleteLinks_eq_ok {archive : Int} {rows : List TagRow} {w v : Workspace} {s : Store}
    (h : rows.forM (fun r => Work.access (Repository.deleteLink archive r.id)) (w.on s) =
      .ok () v) : v = w.on (rows.foldl (Store.withoutLink archive) s) := by
  induction rows generalizing s with
  | nil => exact (Work.pure_eq_ok.mp h).2.symm
  | cons r rows ih =>
    obtain ⟨_, u, hdelete, hrest⟩ := Work.bind_eq_ok.mp h
    obtain ⟨s₁, hs₁, rfl⟩ := Work.access_eq_ok.mp hdelete
    obtain rfl := Store.deleteLink_eq_ok hs₁
    exact ih hrest

theorem idsOf_eq_ok {archive : Int} {known : List TagRow} {tags : List Tag} {ids : List Int}
    {w v : Workspace} (h : idsOf archive known tags w = .ok ids v) :
    v = w ∧ ids = tags.filterMap (idOf? known) ∧ ∀ t ∈ tags, (idOf? known t).isSome := by
  induction tags generalizing ids with
  | nil =>
    obtain ⟨rfl, rfl⟩ := Work.pure_eq_ok.mp h
    simp
  | cons t tags ih =>
    unfold idsOf at h
    cases hid : idOf? known t with
    | none => simp [hid] at h
    | some id =>
      simp only [hid] at h
      obtain ⟨rest, u, hrest, hpure⟩ := Work.bind_eq_ok.mp h
      obtain ⟨rfl, rfl⟩ := Work.pure_eq_ok.mp hpure
      obtain ⟨hu, rfl, hall⟩ := ih hrest
      exact ⟨hu, by simp [hid], by simpa [hid] using hall⟩

theorem addLinks_eq_ok {archive : Int} {ids : List Int} {w v : Workspace} {s : Store}
    (h : Work.access (Repository.addLinks archive ids) (w.on s) = .ok () v) :
    v = w.on (ids.foldl (Store.withLink archive) s) ∧
      (s.links.Nodup → (ids.foldl (Store.withLink archive) s).links.Nodup) := by
  unfold Repository.addLinks at h
  split_ifs at h with hnil
  · subst hnil
    rw [Work.access_pure, EStateM.Result.ok.injEq] at h
    exact ⟨h.2.symm, fun hs => hs⟩
  · obtain ⟨s', hs', rfl⟩ := Work.access_eq_ok.mp h
    obtain ⟨rfl, hnodup⟩ := Store.addLinks_eq_ok hs'
    exact ⟨rfl, hnodup⟩

/-- The part of a pass that comes after the look-up and the upsert. -/
def relink (archive : Int) (wanted : List Tag) (missing : Nat) (known : List TagRow) :
    Work TagOutcome := do
  let links ← Work.access (Repository.links archive)
  let stale := staleLinks wanted links
  stale.forM fun l => Work.access (Repository.deleteLink archive l.id)
  let ids ← idsOf archive known (freshTags wanted links)
  Work.access (Repository.addLinks archive ids)
  return { upserted := missing, inserted := ids.length, deleted := stale.length }

/-- A pass is refused by one of its two batches, or comes to the links. -/
theorem tags_on (answers : TagAnswers) (archive : Int) (rules : List TagRule)
    (incoming : List Tag) (w : Workspace) (s : Store) :
    tags answers archive rules incoming (w.on s) =
      let wanted := normalizeTags rules incoming
      let missing := missingTags (foundTags answers wanted s) wanted
      match Store.lookUpRefusal? wanted, Store.tagRefusal? missing with
      | none, none => relink archive wanted missing.length (knownTags answers wanted s)
          (w.on (upsertedTags answers wanted s))
      | none, some e => .error (refused e) (w.on s)
      | some e, _ => .error (refused e) (w.on s) := by
  have hfind := lookUp_on answers (normalizeTags rules incoming) w s
  have hput := upsert_on answers (missingTags (foundTags answers (normalizeTags rules incoming) s)
    (normalizeTags rules incoming)) w s
  unfold tags
  dsimp only
  cases hlookUp : Store.lookUpRefusal? (normalizeTags rules incoming) with
  | some e =>
    rw [hlookUp] at hfind
    rw [Work.bind_of_error hfind]
  | none =>
    rw [hlookUp] at hfind
    rw [Work.bind_of_ok hfind]
    cases hupsert : Store.tagRefusal? (missingTags
        (foundTags answers (normalizeTags rules incoming) s) (normalizeTags rules incoming)) with
    | some e =>
      rw [hupsert] at hput
      rw [Work.bind_of_error hput]
    | none =>
      rw [hupsert] at hput
      rw [Work.bind_of_ok hput]
      rfl

/-- The batches of a pass are not too large. -/
structure Bindable (answers : TagAnswers) (wanted : List Tag) (s : Store) : Prop where
  lookUp : Store.lookUpRefusal? wanted = none
  upsert : Store.tagRefusal? (missingTags (foundTags answers wanted s) wanted) = none

theorem Bindable.lookUp_on {answers : TagAnswers} {wanted : List Tag} {s : Store}
    (h : Bindable answers wanted s) (w : Workspace) :
    Reconcile.lookUp answers wanted (w.on s) = .ok (foundTags answers wanted s) (w.on s) := by
  rw [Reconcile.lookUp_on, h.lookUp]

theorem Bindable.upsert_on {answers : TagAnswers} {wanted : List Tag} {s : Store}
    (h : Bindable answers wanted s) (w : Workspace) :
    let missing := missingTags (foundTags answers wanted s) wanted
    Reconcile.upsert answers missing (w.on s) =
      .ok ((Store.putTags missing s).1.filter answers.upserted)
        (w.on (upsertedTags answers wanted s)) := by
  intro missing
  rw [Reconcile.upsert_on, h.upsert]
  rfl

theorem Bindable.tags_on {answers : TagAnswers} {rules : List TagRule} {incoming : List Tag}
    {s : Store} (h : Bindable answers (normalizeTags rules incoming) s) (archive : Int)
    (w : Workspace) : tags answers archive rules incoming (w.on s) =
      relink archive (normalizeTags rules incoming)
        (missingTags (foundTags answers (normalizeTags rules incoming) s)
          (normalizeTags rules incoming)).length
        (knownTags answers (normalizeTags rules incoming) s)
        (w.on (upsertedTags answers (normalizeTags rules incoming) s)) := by
  rw [Reconcile.tags_on]
  dsimp only
  rw [h.lookUp, h.upsert]

theorem tags_bindable {answers : TagAnswers} {archive : Int} {rules : List TagRule}
    {incoming : List Tag} {w v : Workspace} {s : Store} {o : TagOutcome}
    (h : tags answers archive rules incoming (w.on s) = .ok o v) :
    Bindable answers (normalizeTags rules incoming) s := by
  rw [tags_on] at h
  dsimp only at h
  split at h
  next hlookUp hupsert => exact ⟨hlookUp, hupsert⟩
  next => cases h
  next => cases h

/-- A pass that returns has found a row for every tag that it links. -/
theorem tags_eq_ok {answers : TagAnswers} {archive : Int} {rules : List TagRule}
    {incoming : List Tag} {w v : Workspace} {s : Store} {o : TagOutcome}
    (h : tags answers archive rules incoming (w.on s) = .ok o v) :
    let wanted := normalizeTags rules incoming
    v = w.on (s.afterTags answers archive wanted) ∧
      o = tagOutcome answers archive wanted s ∧
      Linkable answers archive wanted s ∧
      (s.links.Nodup → (s.afterTags answers archive wanted).links.Nodup) := by
  intro wanted
  rw [(tags_bindable h).tags_on] at h
  unfold relink at h
  by_cases hfits : fits archive = true
  · rw [Work.bind_of_ok (listLinks_on hfits ..)] at h
    obtain ⟨_, u, hdelete, h⟩ := Work.bind_eq_ok.mp h
    obtain rfl := deleteLinks_eq_ok hdelete
    obtain ⟨ids, u, hids, h⟩ := Work.bind_eq_ok.mp h
    obtain ⟨rfl, rfl, hknown⟩ := idsOf_eq_ok hids
    obtain ⟨_, u, hadd, h⟩ := Work.bind_eq_ok.mp h
    obtain ⟨rfl, hnodup⟩ := addLinks_eq_ok hadd
    obtain ⟨rfl, rfl⟩ := Work.pure_eq_ok.mp h
    have hlinks := upsertedTags_links answers wanted s
    exact ⟨rfl, rfl, hknown, fun hs => hnodup (Store.withoutLinks_nodup (hlinks ▸ hs))⟩
  · rw [Work.bind_of_error (listLinks_error hfits ..)] at h
    simp at h

/-! ## The tags of an archive -/

theorem upsertedTags_ids (answers : TagAnswers) (wanted : List Tag) {s : Store}
    (h : (s.tags.map TagRow.id).Nodup) :
    ((upsertedTags answers wanted s).tags.map TagRow.id).Nodup :=
  Store.withTags_ids h

theorem knownTags_rows {answers : TagAnswers} {wanted : List Tag} {s : Store} {r : TagRow}
    (h : r ∈ knownTags answers wanted s) :
    r ∈ (upsertedTags answers wanted s).tags ∧ r.tag ∈ wanted := by
  rcases List.mem_append.mp h with hfound | hadded
  · obtain ⟨hr, hwanted⟩ := Store.mem_tagRowsOf.mp (List.mem_filter.mp hfound).1
    exact ⟨Store.withTags_subset _ s hr, hwanted⟩
  · obtain ⟨hr, hmissing⟩ := Store.putTags_rows (List.mem_filter.mp hadded).1
    exact ⟨hr, (List.mem_filter.mp hmissing).1⟩

theorem idOf?_eq_some {rows : List TagRow} {t : Tag} {n : Int} (h : idOf? rows t = some n) :
    ∃ r ∈ rows, r.tag = t ∧ r.id = n := by
  obtain ⟨r, hlast, rfl⟩ := Option.map_eq_some_iff.mp h
  obtain ⟨hr, htag⟩ := List.mem_filter.mp (List.mem_of_getLast? hlast)
  exact ⟨r, hr, by simpa using htag, rfl⟩

/-- A number that a pass links belongs to the row of a wanted tag. -/
theorem mem_freshIds {answers : TagAnswers} {archive : Int} {wanted : List Tag} {s : Store}
    {n : Int} (h : n ∈ freshIds answers archive wanted s) :
    ∃ r ∈ (upsertedTags answers wanted s).tags, r.id = n ∧ r.tag ∈ wanted := by
  obtain ⟨t, ht, hid⟩ := List.mem_filterMap.mp h
  obtain ⟨r, hr, rfl, rfl⟩ := idOf?_eq_some hid
  exact ⟨r, (knownTags_rows hr).1, rfl, (List.mem_filter.mp ht).1⟩

theorem afterTags_tags (answers : TagAnswers) (archive : Int) (wanted : List Tag) (s : Store) :
    (s.afterTags answers archive wanted).tags = (upsertedTags answers wanted s).tags :=
  (Work.foldl_view (f := Store.withLink archive) Store.tags (fun _ _ => rfl) _ _).trans
    (Work.foldl_view (f := Store.withoutLink archive) Store.tags (fun _ _ => rfl) _ _)

/-- Every wanted tag has a row after a pass. -/
theorem afterTags_rows (answers : TagAnswers) (archive : Int) {wanted : List Tag} (s : Store)
    {t : Tag} (ht : t ∈ wanted) : ∃ r ∈ (s.afterTags answers archive wanted).tags, r.tag = t := by
  rw [afterTags_tags]
  by_cases hfound : hasTag (foundTags answers wanted s) t = true
  · obtain ⟨r, hr, htag⟩ := List.any_eq_true.mp hfound
    have hrow := (Store.mem_tagRowsOf.mp (List.mem_filter.mp hr).1).1
    exact ⟨r, Store.withTags_subset _ s hrow, by simpa using htag⟩
  · exact Store.withTags_row (List.mem_filter.mpr ⟨ht, by simpa using hfound⟩) s

/-- A pass over tags touches no table but those of tags and links. -/
theorem afterTags_frame (answers : TagAnswers) (archive : Int) (wanted : List Tag) (s : Store) :
    ∃ rows links, s.afterTags answers archive wanted = { s with tags := rows, links := links } := by
  let others (t : Store) : Store := { t with tags := [], links := [] }
  have hadd := Work.foldl_view (f := Store.withLink archive) others (fun _ _ => rfl)
  have hdelete := Work.foldl_view (f := Store.withoutLink archive) others (fun _ _ => rfl)
  have hput : others (upsertedTags answers wanted s) = others s := by
    obtain ⟨rows, hrows⟩ :=
      Store.withTags_frame (missingTags (foundTags answers wanted s) wanted) s
    rw [upsertedTags, hrows]
  have hsame : others (s.afterTags answers archive wanted) = others s :=
    (hadd _ _).trans ((hdelete _ _).trans hput)
  exact ⟨_, _, congrArg (fun t : Store =>
    { t with
      tags := (s.afterTags answers archive wanted).tags
      links := (s.afterTags answers archive wanted).links }) hsame⟩

theorem mem_afterTags_links {answers : TagAnswers} {archive : Int} {wanted : List Tag}
    {s : Store} {l : LinkRow} :
    l ∈ (s.afterTags answers archive wanted).links ↔
      l ∈ s.links ∧
        (∀ r ∈ staleLinks wanted ((upsertedTags answers wanted s).linksOf archive),
          l ≠ ⟨archive, r.id⟩) ∨
      ∃ n ∈ freshIds answers archive wanted s, LinkRow.mk archive n = l := by
  unfold Store.afterTags
  rw [Store.withLinks_links, List.mem_append, Store.mem_withoutLinks, upsertedTags_links,
    List.mem_map]

/-- After a pass that returns, an archive is linked to exactly the wanted tags. -/
theorem afterTags_linked {answers : TagAnswers} {archive : Int} {wanted : List Tag} {s : Store}
    (hids : (s.tags.map TagRow.id).Nodup) (hknown : Linkable answers archive wanted s) (t : Tag) :
    (∃ r ∈ (s.afterTags answers archive wanted).linksOf archive, r.tag = t) ↔ t ∈ wanted := by
  have hups := upsertedTags_ids answers wanted hids
  have hafter : ((s.afterTags answers archive wanted).tags.map TagRow.id).Nodup := by
    rwa [afterTags_tags]
  simp only [Store.mem_linksOf, Store.linkedTag?_eq_some hafter, afterTags_tags,
    mem_afterTags_links]
  constructor
  · rintro ⟨r, ⟨l, ⟨hl, hkept⟩ | ⟨n, hn, rfl⟩, ha, hr, hid⟩, rfl⟩
    · -- a link that was kept leads to a wanted tag, else it were stale
      by_contra hunwanted
      have hlinked : r ∈ (upsertedTags answers wanted s).linksOf archive :=
        Store.mem_linksOf.mpr ⟨l, by rwa [upsertedTags_links], ha,
          (Store.linkedTag?_eq_some hups).mpr ⟨hr, hid⟩⟩
      refine hkept r (List.mem_filter.mpr ⟨hlinked, by simpa using hunwanted⟩) ?_
      rw [← ha, hid]
    · obtain ⟨r', hr', hid', hwanted⟩ := mem_freshIds hn
      rwa [List.inj_on_of_nodup_map hups hr hr' (hid.trans hid'.symm)]
  · intro ht
    by_cases hlinked : hasTag ((upsertedTags answers wanted s).linksOf archive) t = true
    · obtain ⟨r, hr, htag⟩ := List.any_eq_true.mp hlinked
      obtain rfl : r.tag = t := by simpa using htag
      obtain ⟨l, hl, ha, hlink⟩ := Store.mem_linksOf.mp hr
      obtain ⟨hrow, hid⟩ := (Store.linkedTag?_eq_some hups).mp hlink
      refine ⟨r, ⟨l, Or.inl ⟨by rwa [upsertedTags_links] at hl, ?_⟩, ha, hrow, hid⟩, rfl⟩
      -- a stale row with the number of this link would be the same row
      rintro r' hr' rfl
      obtain ⟨hr'mem, hunwanted⟩ := List.mem_filter.mp hr'
      obtain ⟨l', -, -, hlink'⟩ := Store.mem_linksOf.mp hr'mem
      obtain ⟨hrow', -⟩ := (Store.linkedTag?_eq_some hups).mp hlink'
      have heq : r = r' := List.inj_on_of_nodup_map hups hrow hrow' hid
      simp [← heq, ht] at hunwanted
    · have hfresh : t ∈ freshTags wanted ((upsertedTags answers wanted s).linksOf archive) :=
        List.mem_filter.mpr ⟨ht, by simpa using hlinked⟩
      obtain ⟨n, hn⟩ := Option.isSome_iff_exists.mp (hknown t hfresh)
      obtain ⟨r, hr, htag, hid⟩ := idOf?_eq_some hn
      have hmem : n ∈ freshIds answers archive wanted s :=
        List.mem_filterMap.mpr ⟨t, hfresh, hn⟩
      exact ⟨r, ⟨⟨archive, n⟩, Or.inr ⟨n, hmem, rfl⟩, rfl, (knownTags_rows hr).1, hid⟩, htag⟩

end Reconcile

end GalleryCatalog
