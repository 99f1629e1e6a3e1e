import GalleryCatalog.Proofs.RowChanges

/-!
# Stale look-ups

A look-up of tags may miss rows that others add meanwhile. What it misses is upserted, which
gives a row to the tags that have none and finds the row of the others. So the pass returns
and leaves the same rows and links, whatever the look-up has shown. Only the count of
upserted tags tells how much was missed.
-/

set_option autoImplicit false

namespace GalleryCatalog

/-- What the database sees to in the table of tags. -/
structure Store.TagsKeyed (s : Store) : Prop where
  ids : (s.tags.map TagRow.id).Nodup
  once : (s.tags.map TagRow.tag).Nodup

/-- The numbers of the tags that are there fit their column, and some more do. -/
structure Store.RoomForTags (s : Store) (more : Nat) : Prop where
  held : ∀ r ∈ s.tags, fits r.id = true
  more : nextId (s.tags.map TagRow.id) + more ≤ 0x8000000000000000

/-! ## Numbers -/

theorem fits_iff {n : Int} :
    fits n = true ↔ -0x8000000000000000 ≤ n ∧ n < 0x8000000000000000 := by
  simp [fits]

theorem nextId_append (ids : List Int) : nextId (ids ++ [nextId ids]) = nextId ids + 1 := by
  have hmax : (ids ++ [nextId ids]).max? = some (nextId ids) := by
    rw [List.max?_eq_some_iff]
    refine ⟨by simp, fun n hn => ?_⟩
    rcases List.mem_append.mp hn with hold | hnew
    · exact Int.le_of_lt (lt_nextId hold)
    · exact Int.le_of_eq (List.mem_singleton.mp hnew)
  conv_lhs => rw [nextId, hmax]

theorem le_nextId {ids : List Int} (h : ∀ n ∈ ids, fits n = true) :
    -0x8000000000000000 ≤ nextId ids := by
  unfold nextId
  cases hmax : ids.max? with
  | none => decide
  | some m =>
    have hm := fits_iff.mp (h m (List.max?_eq_some_iff.mp hmax).1)
    dsimp only
    omega

namespace Store

theorem RoomForTags.mono {s : Store} {n k : Nat} (h : s.RoomForTags n) (hk : k ≤ n) :
    s.RoomForTags k where
  held := h.held
  more := by
    have hmore := h.more
    omega

/-! ## Rows of tags -/

theorem withTag_stored {s : Store} {t : Tag} (h : Reconcile.hasTag s.tags t = true) :
    s.withTag t = s := by
  obtain ⟨r, hr, htag⟩ := hasTag_iff.mp h
  unfold withTag putTag
  split
  next => rfl
  next hnone => exact absurd htag (by simpa using List.find?_eq_none.mp hnone r hr)

theorem hasTag_of_subset {rows rows' : List TagRow} (h : rows ⊆ rows') {t : Tag}
    (ht : Reconcile.hasTag rows t = true) : Reconcile.hasTag rows' t = true := by
  obtain ⟨r, hr, htag⟩ := hasTag_iff.mp ht
  exact hasTag_iff.mpr ⟨r, h hr, htag⟩

/-- Tags that have a row may be left out when tags are put. -/
theorem withTags_filter {keep : Tag → Bool} (tags : List Tag) (s : Store)
    (h : ∀ t ∈ tags, keep t = false → Reconcile.hasTag s.tags t = true) :
    (tags.filter keep).foldl withTag s = tags.foldl withTag s := by
  induction tags generalizing s with
  | nil => rfl
  | cons t tags ih =>
    rw [List.filter_cons, List.foldl_cons]
    cases hkeep : keep t with
    | false =>
      rw [withTag_stored (h t (by simp) hkeep)]
      exact ih s fun u hu => h u (by simp [hu])
    | true =>
      exact ih (s.withTag t) fun u hu hno =>
        hasTag_of_subset (withTag_subset s t) (h u (by simp [hu]) hno)

theorem withTag_room {s : Store} {n : Nat} (t : Tag) (h : s.RoomForTags (n + 1)) :
    (s.withTag t).RoomForTags n := by
  rcases withTag_tags s t with ⟨hsame, -⟩ | ⟨hnew, -⟩
  · have hmore := (h.mono (Nat.le_succ n)).more
    exact ⟨hsame ▸ h.held, hsame ▸ hmore⟩
  · have hlow : -0x8000000000000000 ≤ nextId (s.tags.map TagRow.id) := le_nextId (by
      simpa using h.held)
    have hmore := h.more
    constructor
    · intro r hr
      rw [hnew] at hr
      rcases List.mem_append.mp hr with hold | hadded
      · exact h.held r hold
      · obtain rfl := List.mem_singleton.mp hadded
        change fits (nextId (s.tags.map TagRow.id)) = true
        rw [fits_iff]
        omega
    · rw [hnew, List.map_append, List.map_singleton, nextId_append]
      omega

theorem withTags_room {s : Store} {n : Nat} (tags : List Tag)
    (h : s.RoomForTags (tags.length + n)) : (tags.foldl withTag s).RoomForTags n := by
  induction tags generalizing s with
  | nil => simpa using h
  | cons t tags ih =>
    have hroom : s.RoomForTags (tags.length + n + 1) := h.mono (by rw [List.length_cons]; omega)
    exact ih (withTag_room t hroom)

theorem withTag_keyed {s : Store} (h : s.TagsKeyed) (t : Tag) : (s.withTag t).TagsKeyed := by
  rcases withTag_tags s t with ⟨hsame, -⟩ | ⟨hnew, hnone⟩
  · exact ⟨hsame ▸ h.ids, hsame ▸ h.once⟩
  · constructor <;> rw [hnew]
    · exact nodup_map_append h.ids fun r hr => nextId_ne hr
    · exact nodup_map_append h.once hnone

theorem withTags_keyed {s : Store} (h : s.TagsKeyed) (tags : List Tag) :
    (tags.foldl withTag s).TagsKeyed := by
  induction tags generalizing s with
  | nil => exact h
  | cons t tags ih => exact ih (withTag_keyed h t)

theorem withTags_prefix (tags : List Tag) (s : Store) :
    s.tags <+: (tags.foldl withTag s).tags := by
  induction tags generalizing s with
  | nil => exact List.prefix_refl _
  | cons t tags ih =>
    have hstep : s.tags <+: (s.withTag t).tags := by
      rcases withTag_tags s t with ⟨h, -⟩ | ⟨h, -⟩ <;> simp [h]
    exact hstep.trans (ih (s.withTag t))

theorem putTags_shows {tags : List Tag} {t : Tag} (h : t ∈ tags) (s : Store) :
    ∃ r ∈ (putTags tags s).1, r.tag = t := by
  induction tags generalizing s with
  | nil => simp at h
  | cons u tags ih =>
    have hrows : (putTags (u :: tags) s).1 = (putTag u s).1 :: (putTags tags (s.withTag u)).1 :=
      rfl
    rw [hrows]
    rcases List.mem_cons.mp h with rfl | ht
    · exact ⟨_, List.mem_cons_self, (putTag_row t s).2⟩
    · obtain ⟨r, hr, htag⟩ := ih ht (s.withTag u)
      exact ⟨r, List.mem_cons_of_mem _ hr, htag⟩

/-! ## Links -/

theorem deleteLink_ok {archive : Int} {r : TagRow} (ha : fits archive = true)
    (hr : fits r.id = true) (s : Store) :
    deleteLink archive r.id s = .ok () (s.withoutLink archive r) :=
  Work.requires_ok (by simp [ha, hr]) _ s

theorem addLink_ok {archive tag : Int} (ha : fits archive = true) (ht : fits tag = true)
    {s : Store} (hnew : (⟨archive, tag⟩ : LinkRow) ∉ s.links) :
    addLink archive tag s = .ok () (s.withLink archive tag) := by
  refine (Work.requires_ok (by simp [ha, ht]) _ s).trans ?_
  rw [Work.get_bind_apply, if_neg (by simpa using hnew)]
  rfl

theorem addLinks_ok {archive : Int} (ha : fits archive = true) {tags : List Int}
    (hfits : ∀ n ∈ tags, fits n = true) (hnodup : tags.Nodup) {s : Store}
    (hnew : ∀ n ∈ tags, (⟨archive, n⟩ : LinkRow) ∉ s.links) :
    addLinks archive tags s = .ok () (tags.foldl (withLink archive) s) := by
  induction tags generalizing s with
  | nil => rfl
  | cons n tags ih =>
    obtain ⟨hfirst, hrest⟩ := List.nodup_cons.mp hnodup
    have hlink := addLink_ok ha (hfits n (by simp)) (hnew n (by simp))
    refine (Work.bind_of_ok hlink).trans (ih (fun k hk => hfits k (by simp [hk])) hrest ?_)
    intro k hk hlinked
    rcases List.mem_append.mp hlinked with hold | hadded
    · exact hnew k (by simp [hk]) hold
    · have hsame : k = n := by simpa using hadded
      exact hfirst (hsame ▸ hk)

end Store

namespace Reconcile

open Store

/-! ## A pass over tags -/

section Pass

variable {answers : TagAnswers} {id : Int} {wanted : List Tag} {s : Store}

/-- What a look-up shows makes no difference to the rows after the upsert. -/
theorem upsertedTags_eq : upsertedTags answers wanted s = wanted.foldl withTag s := by
  apply withTags_filter
  intro t ht hfound
  rw [Bool.not_eq_false'] at hfound
  exact hasTag_of_subset (fun r hr => (mem_tagRowsOf.mp (List.mem_filter.mp hr).1).1) hfound

theorem idOf?_isSome {rows : List TagRow} {t : Tag} (h : ∃ r ∈ rows, r.tag = t) :
    (idOf? rows t).isSome := by
  obtain ⟨r, hr, htag⟩ := h
  have hne : rows.filter (fun r => r.tag = t) ≠ [] :=
    List.ne_nil_of_mem (List.mem_filter.mpr ⟨hr, by simpa using htag⟩)
  rw [idOf?, Option.isSome_map, List.getLast?_isSome]
  exact hne

variable (hupserted : ∀ r, answers.upserted r = true)
include hupserted

theorem knownTags_shows {t : Tag} (ht : t ∈ wanted) :
    ∃ r ∈ knownTags answers wanted s, r.tag = t := by
  by_cases hfound : hasTag (foundTags answers wanted s) t = true
  · obtain ⟨r, hr, htag⟩ := hasTag_iff.mp hfound
    exact ⟨r, List.mem_append_left _ hr, htag⟩
  · have hmissing : t ∈ missingTags (foundTags answers wanted s) wanted :=
      List.mem_filter.mpr ⟨ht, by simpa using hfound⟩
    obtain ⟨r, hr, htag⟩ := putTags_shows hmissing s
    exact ⟨r, List.mem_append_right _ (List.mem_filter.mpr ⟨hr, hupserted r⟩), htag⟩

theorem linkable (id : Int) : Linkable answers id wanted s := fun _ ht =>
  idOf?_isSome (knownTags_shows hupserted (List.mem_filter.mp ht).1)

theorem idOf?_knownTags (hs : s.TagsKeyed) {t : Tag} (ht : t ∈ wanted) :
    idOf? (knownTags answers wanted s) t =
      ((wanted.foldl withTag s).tags.find? fun r => r.tag = t).map TagRow.id := by
  obtain ⟨n, hn⟩ := Option.isSome_iff_exists.mp (idOf?_isSome (knownTags_shows hupserted ht))
  obtain ⟨r, hr, htag, rfl⟩ := idOf?_eq_some hn
  have hrow := (knownTags_rows hr).1
  rw [upsertedTags_eq] at hrow
  cases hfind : (wanted.foldl withTag s).tags.find? fun r => r.tag = t with
  | none => exact absurd htag (by simpa using List.find?_eq_none.mp hfind r hrow)
  | some r' =>
    have htag' : r'.tag = t := by simpa using List.find?_some hfind
    have hsame : r = r' := List.inj_on_of_nodup_map (withTags_keyed hs wanted).once hrow
      (List.mem_of_find?_eq_some hfind) (htag.trans htag'.symm)
    rw [hn, hsame, Option.map_some]

theorem freshIds_eq (hs : s.TagsKeyed) :
    freshIds answers id wanted s =
      (freshTags wanted ((wanted.foldl withTag s).linksOf id)).filterMap fun t =>
        ((wanted.foldl withTag s).tags.find? fun r => r.tag = t).map TagRow.id := by
  rw [freshIds, upsertedTags_eq]
  apply List.filterMap_congr
  intro t ht
  exact idOf?_knownTags hupserted hs (List.mem_filter.mp ht).1

theorem afterTags_eq (hs : s.TagsKeyed) {answers' : TagAnswers}
    (hupserted' : ∀ r, answers'.upserted r = true) :
    s.afterTags answers id wanted = s.afterTags answers' id wanted := by
  unfold afterTags
  rw [freshIds_eq hupserted hs, freshIds_eq hupserted' hs, upsertedTags_eq, upsertedTags_eq]

omit hupserted in
variable (answers id) in
theorem freshIds_nodup (hs : s.TagsKeyed) (hwanted : wanted.Nodup) :
    (freshIds answers id wanted s).Nodup := by
  apply (hwanted.filter _).filterMap
  intro t t' n ht ht'
  obtain ⟨r, hr, rfl, rfl⟩ := idOf?_eq_some ht
  obtain ⟨r', hr', rfl, hid⟩ := idOf?_eq_some ht'
  have hids := upsertedTags_ids answers wanted hs.ids
  rw [List.inj_on_of_nodup_map hids (knownTags_rows hr).1 (knownTags_rows hr').1 hid.symm]

omit hupserted in
variable (answers id) in
/-- No link comes twice, since a pass links only what is not linked yet. -/
theorem afterTags_links_nodup (hs : s.TagsKeyed) (hlinks : s.links.Nodup) (hwanted : wanted.Nodup) :
    (s.afterTags answers id wanted).links.Nodup := by
  have hkept : ((staleLinks wanted ((upsertedTags answers wanted s).linksOf id)).foldl
      (withoutLink id) (upsertedTags answers wanted s)).links.Nodup :=
    withoutLinks_nodup (by rwa [upsertedTags_links])
  have hnew : ((freshIds answers id wanted s).map (LinkRow.mk id)).Nodup :=
    (freshIds_nodup answers id hs hwanted).map fun _ _ h => (LinkRow.mk.inj h).2
  unfold afterTags
  rw [withLinks_links]
  refine List.Nodup.append hkept hnew ?_
  intro l hl hlinked
  obtain ⟨n, hn, rfl⟩ := List.mem_map.mp hlinked
  have hold := (mem_withoutLinks.mp hl).1
  rw [upsertedTags_links] at hold
  exact freshIds_not_linked answers id wanted hs.ids hn hold

end Pass

/-! ## The pass runs through -/

theorem deleteLinks_on {id : Int} (hid : fits id = true) {rows : List TagRow}
    (hrows : ∀ r ∈ rows, fits r.id = true) (w : Workspace) (s : Store) :
    rows.forM (fun r => Work.access (Repository.deleteLink id r.id)) (w.on s) =
      .ok () (w.on (rows.foldl (withoutLink id) s)) := by
  have hloop := Work.forM_on (fun w _ => w) rows
    (fun r hr w s => Work.access_ok (deleteLink_ok hid (hrows r hr) s) w) w s
  rwa [List.foldl_fixed] at hloop

theorem idsOf_on {id : Int} {known : List TagRow} {tags : List Tag}
    (h : ∀ t ∈ tags, (idOf? known t).isSome) (w : Workspace) :
    idsOf id known tags w = .ok (tags.filterMap (idOf? known)) w := by
  induction tags with
  | nil => rfl
  | cons t tags ih =>
    obtain ⟨n, hn⟩ := Option.isSome_iff_exists.mp (h t (by simp))
    have hrest := ih fun u hu => h u (by simp [hu])
    unfold idsOf
    simp only [hn, List.filterMap_cons]
    exact Work.bind_of_ok hrest

theorem addLinks_on {id : Int} (hid : fits id = true) {ids : List Int}
    (hfits : ∀ n ∈ ids, fits n = true) (hnodup : ids.Nodup) {s : Store}
    (hnew : ∀ n ∈ ids, (⟨id, n⟩ : LinkRow) ∉ s.links) (w : Workspace) :
    Work.access (Repository.addLinks id ids) (w.on s) =
      .ok () (w.on (ids.foldl (withLink id) s)) := by
  unfold Repository.addLinks
  split_ifs with hnil
  · subst hnil
    exact Work.access_pure () s w
  · exact Work.access_ok (addLinks_ok hid hfits hnodup hnew) w

/-- With room for the numbers of new rows, and batches that are not too large, a pass returns. -/
theorem tags_return (answers : TagAnswers) (hupserted : ∀ r, answers.upserted r = true) {id : Int}
    (hid : fits id = true) (rules : List TagRule) (incoming : List Tag) {s : Store}
    (hs : s.TagsKeyed) (hroom : ((normalizeTags rules incoming).foldl withTag s).RoomForTags 0)
    (hbind : Bindable answers (normalizeTags rules incoming) s) (w : Workspace) :
    let wanted := normalizeTags rules incoming
    tags answers id rules incoming (w.on s) =
      .ok (tagOutcome answers id wanted s) (w.on (s.afterTags answers id wanted)) := by
  intro wanted
  have hfits : ∀ r ∈ (upsertedTags answers wanted s).tags, fits r.id = true := by
    rw [upsertedTags_eq]
    exact hroom.held
  have hstale : ∀ r ∈ staleLinks wanted ((upsertedTags answers wanted s).linksOf id),
      fits r.id = true := by
    intro r hr
    obtain ⟨l, -, -, hlinked⟩ := mem_linksOf.mp (List.mem_filter.mp hr).1
    exact hfits r (List.mem_of_find?_eq_some hlinked)
  have hfresh : ∀ n ∈ freshIds answers id wanted s, fits n = true := by
    intro n hn
    obtain ⟨r, hr, rfl, -⟩ := mem_freshIds hn
    exact hfits r hr
  have hnew : ∀ n ∈ freshIds answers id wanted s, (⟨id, n⟩ : LinkRow) ∉
      ((staleLinks wanted ((upsertedTags answers wanted s).linksOf id)).foldl
        (withoutLink id) (upsertedTags answers wanted s)).links := by
    intro n hn hlinked
    have hold := (mem_withoutLinks.mp hlinked).1
    rw [upsertedTags_links] at hold
    exact freshIds_not_linked answers id wanted hs.ids hn hold
  have hnodup := freshIds_nodup answers id hs (normalizeTags_nodup rules incoming)
  rw [hbind.tags_on]
  refine (Work.bind_of_ok (listLinks_on hid w (upsertedTags answers wanted s))).trans ?_
  refine (Work.bind_of_ok (deleteLinks_on hid hstale w _)).trans ?_
  refine (Work.bind_of_ok (idsOf_on (linkable hupserted id) _)).trans ?_
  exact Work.bind_of_ok (addLinks_on hid hfresh hnodup hnew w)

/-- A look-up misses the wanted tags none of whose rows it shows. -/
theorem missingTags_length (found : TagRow → Bool) (wanted : List Tag) (s : Store) :
    (missingTags (foundTags { found } wanted s) wanted).length =
      wanted.countP fun t => ¬ ∃ r ∈ s.tags, r.tag = t ∧ found r = true := by
  rw [missingTags, ← List.countP_eq_length_filter]
  apply List.countP_congr
  intro t ht
  simp only [foundTags, Bool.not_eq_true', ← Bool.not_eq_true, hasTag_iff, List.mem_filter,
    mem_tagRowsOf, decide_eq_true_eq]
  constructor
  · rintro hnone ⟨r, hr, rfl, hfound⟩
    exact hnone ⟨r, ⟨⟨hr, ht⟩, hfound⟩, rfl⟩
  · rintro hnone ⟨r, ⟨⟨hr, -⟩, hfound⟩, rfl⟩
    exact hnone ⟨r, hr, rfl, hfound⟩

/-- A look-up that shows less leaves more to upsert. -/
theorem bindable_of_found {wanted : List Tag} {s : Store} {found : TagRow → Bool}
    (hlookUp : (composites wanted).size + 1 ≤ parameterLimit)
    (hupsert : 2 * wanted.countP (fun t => ¬ ∃ r ∈ s.tags, r.tag = t ∧ found r = true) ≤
      parameterLimit) {found' : TagRow → Bool} (h : ∀ r, found r = true → found' r = true) :
    Bindable { found := found' } wanted s := by
  refine ⟨lookUpRefusal?_eq_none.mpr hlookUp, tagRefusal?_eq_none.mpr ?_⟩
  have hfewer : wanted.countP (fun t => ¬ ∃ r ∈ s.tags, r.tag = t ∧ found' r = true) ≤
      wanted.countP fun t => ¬ ∃ r ∈ s.tags, r.tag = t ∧ found r = true := by
    apply List.countP_mono_left
    intro t _ hnone
    simp only [decide_eq_true_eq] at hnone ⊢
    rintro ⟨r, hr, htag, hfound⟩
    exact hnone ⟨r, hr, htag, h r hfound⟩
  rw [missingTags_length]
  omega

theorem withTags_room_of_missing {wanted : List Tag} {s : Store}
    (hroom : s.RoomForTags (wanted.countP fun t => ¬ ∃ r ∈ s.tags, r.tag = t)) :
    (wanted.foldl withTag s).RoomForTags 0 := by
  have hrows : (wanted.filter fun t => ¬ ∃ r ∈ s.tags, r.tag = t).foldl withTag s =
      wanted.foldl withTag s := by
    apply withTags_filter
    intro t _ hstored
    exact hasTag_iff.mpr (by simpa using hstored)
  rw [← hrows]
  apply withTags_room
  rwa [← List.countP_eq_length_filter]

/-- Look-ups make a difference to the count of upserted tags alone. -/
theorem tagOutcome_eq {s : Store} (hs : s.TagsKeyed) (id : Int) (wanted : List Tag)
    (found : TagRow → Bool) :
    tagOutcome { found } id wanted s =
      { tagOutcome {} id wanted s with
        upserted := wanted.countP fun t => ¬ ∃ r ∈ s.tags, r.tag = t ∧ found r = true } := by
  have hfresh : freshIds { found } id wanted s = freshIds {} id wanted s := by
    rw [freshIds_eq (fun _ => rfl) hs, freshIds_eq (fun _ => rfl) hs]
  simp only [tagOutcome, missingTags_length, hfresh, upsertedTags_eq]

/-- Whatever rows of the wanted tags a look-up shows, a pass whose batches are not too large
returns and leaves the store that it leaves after a complete look-up. Rows of tags are only
added, one for each tag that has none. The outcome differs in the count of upserted tags alone,
which are those that the look-up has missed. -/
theorem tags_of_stale_lookup {s : Store} (hs : s.TagsKeyed) (id : Int) (hid : fits id = true)
    (rules : List TagRule) (incoming : List Tag)
    (hroom : s.RoomForTags
      ((normalizeTags rules incoming).countP fun t => ¬ ∃ r ∈ s.tags, r.tag = t))
    (found : TagRow → Bool)
    (hlookUp : (composites (normalizeTags rules incoming)).size + 1 ≤ parameterLimit)
    (hupsert : 2 * (normalizeTags rules incoming).countP
      (fun t => ¬ ∃ r ∈ s.tags, r.tag = t ∧ found r = true) ≤ parameterLimit) (w : Workspace) :
    ∃ o s', tags {} id rules incoming (w.on s) = .ok o (w.on s') ∧
      tags { found } id rules incoming (w.on s) = .ok
        { o with
          upserted := (normalizeTags rules incoming).countP fun t =>
            ¬ ∃ r ∈ s.tags, r.tag = t ∧ found r = true } (w.on s') ∧
      s.tags <+: s'.tags ∧ (s'.tags.map TagRow.tag).Nodup := by
  let wanted := normalizeTags rules incoming
  have hafter : (wanted.foldl withTag s).RoomForTags 0 := withTags_room_of_missing hroom
  have hcomplete := tags_return {} (fun _ => rfl) hid rules incoming hs hafter
    (bindable_of_found hlookUp hupsert fun _ _ => rfl) w
  have hstale := tags_return { found } (fun _ => rfl) hid rules incoming hs hafter
    (bindable_of_found hlookUp hupsert fun _ h => h) w
  have hsame : s.afterTags { found } id wanted = s.afterTags {} id wanted :=
    afterTags_eq (fun _ => rfl) hs fun _ => rfl
  have htags : (s.afterTags {} id wanted).tags = (wanted.foldl withTag s).tags := by
    rw [afterTags_tags, upsertedTags_eq]
  refine ⟨_, _, hcomplete, ?_, ?_, ?_⟩
  · rw [hstale, hsame, tagOutcome_eq hs]
  · rw [htags]
    exact withTags_prefix wanted s
  · rw [htags]
    exact (withTags_keyed hs wanted).once

/-- The row of a tag is added between the look-up and the upsert. -/
theorem tags_of_tag_added_meanwhile : ∃ o s',
    tags {} 1 [] [⟨"artist", "alice"⟩]
        (Workspace.on {} { tags := [⟨1, ⟨"artist", "alice"⟩⟩] }) =
      .ok o (Workspace.on {} s') ∧
    tags { found := fun _ => false } 1 [] [⟨"artist", "alice"⟩]
        (Workspace.on {} { tags := [⟨1, ⟨"artist", "alice"⟩⟩] }) =
      .ok { o with upserted := 1 } (Workspace.on {} s') := by
  have hkeyed : Store.TagsKeyed { tags := [⟨1, ⟨"artist", "alice"⟩⟩] } :=
    ⟨by decide, by decide⟩
  obtain ⟨o, s', hcomplete, hstale, -, -⟩ := tags_of_stale_lookup hkeyed 1 (by decide) []
    [⟨"artist", "alice"⟩] ⟨by decide, by decide⟩ (fun _ => false) (by decide) (by decide) {}
  exact ⟨o, s', hcomplete, hstale⟩

end Reconcile

end GalleryCatalog
