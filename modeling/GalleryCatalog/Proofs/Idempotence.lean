import GalleryCatalog.Proofs.Convergence

/-!
# Idempotence

A store on which a reconciliation has returned is settled for it. Nothing that is stored
is stale, nothing that is wanted is missing except sources without a name, and an image
put over its own page changes nothing. So the same reconciliation returns once more and
does nothing.
-/

set_option autoImplicit false

namespace GalleryCatalog

namespace Reconcile

/-- What the passes of a reconciliation find on a store that they need not change. -/
structure Settled (o : Options) (id : Int) (m : Metadata) (s : Store) : Prop where
  stale : ∀ xs, m.sources = some xs →
    staleSources o.mergeSources (normalizeSources o.sourceRules xs) (s.sourcesOf id) = []
  fresh : ∀ xs, m.sources = some xs →
    freshSources (normalizeSources o.sourceRules xs) (s.sourcesOf id) =
      (normalizeSources o.sourceRules xs).filter fun x => !isNamed x
  rows : ∀ ts, m.tags = some ts → ∀ t ∈ normalizeTags o.tagRules ts, ∃ r ∈ s.tags, r.tag = t
  links : ∀ ts, m.tags = some ts →
    ∀ t, (∃ r ∈ s.linksOf id, r.tag = t) ↔ t ∈ normalizeTags o.tagRules ts
  pages : ∀ is, m.images = some is →
    ∀ page, ∃ old, s.page? id page = (winner? is page).map fun i => i.over old

/-! ## Sources -/

section Sources

variable {id : Int} {s : Store} {rules : List SourceRule} {merge : Bool} {incoming : List Source}

theorem staleSources_after (hnamed : ∀ x ∈ s.sourcesOf id, isNamed x = true) :
    staleSources merge (normalizeSources rules incoming)
      ((s.afterSources id rules merge incoming).sourcesOf id) = [] := by
  cases merge with
  | true => rfl
  | false =>
    simp only [staleSources, Bool.false_eq_true, if_false, List.filter_eq_nil_iff]
    intro x hx
    rcases (Store.mem_afterSources hnamed).mp hx with ⟨hmerge, -⟩ | ⟨hwanted, -⟩
    · cases hmerge
    · simpa using hwanted

theorem freshSources_after (hnamed : ∀ x ∈ s.sourcesOf id, isNamed x = true) :
    freshSources (normalizeSources rules incoming)
        ((s.afterSources id rules merge incoming).sourcesOf id) =
      (normalizeSources rules incoming).filter fun x => !isNamed x := by
  apply List.filter_congr
  intro x hx
  by_cases hname : isNamed x = true
  · have hin : x ∈ (s.afterSources id rules merge incoming).sourcesOf id :=
      (Store.mem_afterSources hnamed).mpr (Or.inr ⟨hx, hname⟩)
    simp [hin, hname]
  · have hnot : x ∉ (s.afterSources id rules merge incoming).sourcesOf id := by
      intro hin
      rcases (Store.mem_afterSources hnamed).mp hin with ⟨-, hold⟩ | ⟨-, hyes⟩
      · exact hname (hnamed x hold)
      · exact hname hyes
    simp [hnot, hname]

end Sources

/-! ## Images -/

section Images

variable {id : Int} {s : Store} {incoming : List Image}

/-- Putting an image over its own page changes nothing. -/
theorem withImage_settled (hs : s.Sound) {i old} (h : s.page? id i.page = some (Image.over i old)) :
    s.withImage id i = s := by
  obtain ⟨row, hrow, -⟩ := Option.map_eq_some_iff.mp h
  have hput : s.withImage id i =
      { s with images := s.images.map fun r => if r.isPage id i.page then r.updated i else r } := by
    simp [Store.withImage, Store.putImage, hrow]
  have hsame : ∀ r ∈ s.images, (if r.isPage id i.page then r.updated i else r) = r := by
    intro r hr
    split_ifs with hpage
    · obtain ⟨rfl, hp⟩ := Store.isPage_iff.mp hpage
      have himage : r.image = i.over old := by
        have hfound := hs.page?_row hr
        rw [hp, h] at hfound
        exact (Option.some.inj hfound).symm
      simp only [ImageRow.image, Image.over, Image.mk.injEq] at himage
      obtain ⟨hname, -, hwidth, hheight⟩ := himage
      have hw : i.width.or r.width = r.width := by rw [hwidth]; cases i.width <;> simp
      have hh : i.height.or r.height = r.height := by rw [hheight]; cases i.height <;> simp
      simp [ImageRow.updated, ← hname, hw, hh]
    · rfl
  rw [hput, List.map_congr_left hsame, List.map_id']

variable (hs : s.Sound)
  (hpages : ∀ page, ∃ old, s.page? id page = (winner? incoming page).map fun i => i.over old)
include hs hpages

theorem winners_settled : (winners incoming).foldl (Store.withImage id) s = s := by
  have hput : ∀ i ∈ winners incoming, s.withImage id i = s := by
    intro i hi
    obtain ⟨old, hold⟩ := hpages i.page
    rw [mem_winners.mp hi] at hold
    exact withImage_settled hs hold
  generalize winners incoming = wanted at hput
  induction wanted with
  | nil => rfl
  | cons i wanted ih =>
    rw [List.foldl_cons, hput i (by simp)]
    exact ih fun j hj => hput j (by simp [hj])

theorem imagesOf_shown {c : Image} (hc : c ∈ s.imagesOf id) :
    ∃ i old, winner? incoming c.page = some i ∧ c = i.over old := by
  obtain ⟨r, hr, rfl, rfl⟩ := Store.mem_imagesOf.mp hc
  obtain ⟨old, hold⟩ := hpages r.page
  rw [hs.page?_row hr] at hold
  obtain ⟨i, hi, hover⟩ := Option.map_eq_some_iff.mp hold.symm
  exact ⟨i, old, hi, hover.symm⟩

theorem replacedImages_settled :
    replacedImages (winners incoming) (s.imagesOf id) = [] := by
  simp only [replacedImages, List.filter_eq_nil_iff, List.any_eq_true, decide_eq_true_eq]
  rintro c hc ⟨i, hi, hpage, hname⟩
  obtain ⟨j, old, hj, rfl⟩ := imagesOf_shown hs hpages hc
  rw [← hpage, mem_winners.mp hi] at hj
  obtain rfl := Option.some.inj hj
  exact hname rfl

theorem stalePages_settled : stalePages (winners incoming) (s.imagesOf id) = [] := by
  simp only [stalePages, List.filter_eq_nil_iff, List.mem_map, hasPage_winners]
  rintro page ⟨c, hc, rfl⟩
  obtain ⟨i, old, hi, -⟩ := imagesOf_shown hs hpages hc
  simp [hi]

omit hs in
theorem newImages_settled : newImages (winners incoming) (s.imagesOf id) = [] := by
  simp only [newImages, List.filter_eq_nil_iff]
  intro i hi
  obtain ⟨old, hold⟩ := hpages i.page
  rw [mem_winners.mp hi] at hold
  have hshown : ¬ s.page? id i.page = none := by simp [hold]
  rw [Store.page?_none] at hshown
  simpa [hasPage] using hshown

theorem afterImages_settled : s.afterImages id incoming = s := by
  unfold Store.afterImages
  dsimp only
  rw [winners_settled hs hpages, stalePages_settled hs hpages, Store.withoutPages_nil]

end Images

/-! ## Tags -/

/-- When every wanted tag has a row and the archive is linked to those and no others, the
pass finds them all and has nothing to do. -/
theorem tags_settled {id : Int} (hid : fits id = true) {rules : List TagRule}
    {incoming : List Tag} {s : Store}
    (hrows : ∀ t ∈ normalizeTags rules incoming, ∃ r ∈ s.tags, r.tag = t)
    (hlinks : ∀ t, (∃ r ∈ s.linksOf id, r.tag = t) ↔ t ∈ normalizeTags rules incoming)
    (hlookUp : Store.lookUpRefusal? (normalizeTags rules incoming) = none) (w : Workspace) :
    tags {} id rules incoming (w.on s) = .ok ⟨0, 0, 0⟩ (w.on s) := by
  have hmissing : missingTags (foundTags {} (normalizeTags rules incoming) s)
      (normalizeTags rules incoming) = [] := by
    simp only [missingTags, List.filter_eq_nil_iff]
    intro t ht
    obtain ⟨r, hr, rfl⟩ := hrows t ht
    have hfound : r ∈ foundTags {} (normalizeTags rules incoming) s :=
      List.mem_filter.mpr ⟨Store.mem_tagRowsOf.mpr ⟨hr, ht⟩, rfl⟩
    have hhas : hasTag (foundTags {} (normalizeTags rules incoming) s) r.tag = true :=
      List.any_eq_true.mpr ⟨r, hfound, by simp⟩
    simp [hhas]
  have hstale : staleLinks (normalizeTags rules incoming) (s.linksOf id) = [] := by
    simp only [staleLinks, List.filter_eq_nil_iff]
    intro r hr
    simpa using (hlinks r.tag).mp ⟨r, hr, rfl⟩
  have hfresh : freshTags (normalizeTags rules incoming) (s.linksOf id) = [] := by
    simp only [freshTags, List.filter_eq_nil_iff]
    intro t ht
    obtain ⟨r, hr, rfl⟩ := (hlinks t).mpr ht
    have hhas : hasTag (s.linksOf id) r.tag = true := List.any_eq_true.mpr ⟨r, hr, by simp⟩
    simp [hhas]
  have hbind : Bindable {} (normalizeTags rules incoming) s := by
    refine ⟨hlookUp, ?_⟩
    rw [hmissing]
    rfl
  rw [hbind.tags_on, relink, upsertedTags, hmissing, List.foldl_nil,
    Work.bind_of_ok (listLinks_on hid ..), hstale, hfresh]
  rfl

/-! ## The reconciliation -/

section Whole

variable {o : Options} {id : Int} {m : Metadata} {s : Store}

theorem reconciled_settled (hs : s.Sound) (hlinkable : ∀ ts ∈ m.tags,
      Linkable {} id (normalizeTags o.tagRules ts) (sourced o id m s)) :
    Settled o id m (reconciled {} o id m s) where
  stale xs hm := by
    rw [reconciled_sourcesOf hm]
    exact staleSources_after (hs.named id)
  fresh xs hm := by
    rw [reconciled_sourcesOf hm]
    exact freshSources_after (hs.named id)
  rows ts hm t ht := by
    rw [(reconciled_rest {} o id m s).2.2.1, tagged, hm]
    exact afterTags_rows {} id _ ht
  links ts hm t := reconciled_linked hs hm (hlinkable ts hm) t
  pages is hm page := ⟨_, reconciled_page? hm page⟩

theorem Settled.sourced (h : Settled o id m s) : sourced o id m s = s := by
  unfold Reconcile.sourced
  split
  next => rfl
  next xs hm =>
    have hnone : ((normalizeSources o.sourceRules xs).filter fun x => !isNamed x).filter
        isNamed = [] := by simp
    unfold Store.afterSources
    dsimp only
    rw [h.stale xs hm, h.fresh xs hm, hnone]
    rfl

/-- The outcome of a reconciliation with nothing to do. -/
def idleOutcome (o : Options) (id : Int) (m : Metadata) : ArchiveOutcome where
  archive := id
  sources := m.sources.map fun xs =>
    ⟨0, 0, ((normalizeSources o.sourceRules xs).filter fun x => !isNamed x).length⟩
  images := m.images.map fun _ => ⟨0, 0, 0, 0⟩
  tags := m.tags.map fun _ => ⟨0, 0, 0⟩

theorem Settled.sourcePart (h : Settled o id m s) :
    (m.sources.map fun xs => sourceOutcome o.sourceRules o.mergeSources xs (s.sourcesOf id)) =
      (idleOutcome o id m).sources := by
  cases hm : m.sources with
  | none => simp [idleOutcome, hm]
  | some xs => simp [idleOutcome, hm, sourceOutcome, h.stale xs hm, h.fresh xs hm]

/-- On a settled store the passes do nothing. -/
theorem Settled.archive_on (h : Settled o id m s) (hs : s.Sound) (hid : fits id = true)
    (hlookUp : ∀ ts ∈ m.tags, Store.lookUpRefusal? (normalizeTags o.tagRules ts) = none)
    (hput : ∀ is ∈ m.images, Store.imageRefusal? (winners is) = none)
    (files : Option PageFile.Directory) (hash : String) (w : Workspace) :
    ∃ v : Workspace, v.tree = w.tree ∧
      archive {} o files id hash m (w.on s) = .ok (idleOutcome o id m) (v.on s) := by
  obtain ⟨v, htree, hsources⟩ := sources_done hid o m w s
  rw [h.sourced, h.sourcePart] at hsources
  have htags : optionally (tags {} id o.tagRules) m.tags (v.on s) =
      .ok (idleOutcome o id m).tags (v.on s) := by
    cases hm : m.tags with
    | none => simp [idleOutcome, hm, optionally, pure, EStateM.pure]
    | some ts =>
      have hpass := tags_settled hid (h.rows ts hm) (h.links ts hm) (hlookUp ts hm) v
      simp only [idleOutcome, hm]
      exact Work.bind_of_ok hpass
  have himages : optionally (images id hash files o.removeOnUpdate) m.images (v.on s) =
      .ok (idleOutcome o id m).images (v.on s) := by
    cases hm : m.images with
    | none => simp [idleOutcome, hm, optionally, pure, EStateM.pure]
    | some is =>
      have hpages := h.pages is hm
      have hnothing (t : FileTree) : removal files o.removeOnUpdate hash [] t = (0, t) := by
        unfold removal
        split <;> simp
      have hpass : images id hash files o.removeOnUpdate is (v.on s) = .ok ⟨0, 0, 0, 0⟩ (v.on s) := by
        rw [images_on hid]
        simp only [hput is hm, replacedImages_settled hs hpages, stalePages_settled hs hpages,
          hnothing, afterImages_settled hs hpages, imageOutcome, newImages_settled hpages]
        rfl
      simp only [idleOutcome, hm]
      exact Work.bind_of_ok hpass
  refine ⟨v, htree, ?_⟩
  unfold archive
  rw [Work.bind_of_ok hsources, Work.bind_of_ok htags, Work.bind_of_ok himages]
  rfl

/-- What a second run counts, from what the first one has counted. -/
theorem idleOutcome_eq (hs : s.Sound) (files : Option PageFile.Directory) (hash : String)
    (t : FileTree) : idleOutcome o id m =
      let first := outcomeOf {} o files id hash m s t
      { archive := first.archive
        sources := first.sources.map fun o => { inserted := 0, deleted := 0, skipped := o.skipped }
        images := first.images.map fun _ =>
          { inserted := 0, updated := 0, deleted := 0, removedFiles := 0 }
        tags := first.tags.map fun _ => { upserted := 0, inserted := 0, deleted := 0 } } := by
  have hskipped (xs : List Source) :
      (sourceOutcome o.sourceRules o.mergeSources xs (s.sourcesOf id)).skipped =
        ((normalizeSources o.sourceRules xs).filter fun x => !isNamed x).length :=
    congrArg List.length (freshSources_nameless (hs.named id))
  simp [idleOutcome, outcomeOf, hskipped, Function.comp_def]

end Whole

end Reconcile

/-- A reconciliation that has returned returns when it is run again at once. It leaves every
row of every table and every file as they are, and counts nothing but the sources that it
skips, which are as many as before. -/
theorem Service.reconcile_idempotent {settings : Settings} {here : Location}
    {locked : List Location} {id : Int} {merge verbose : Bool} {m : Metadata}
    {w u : Workspace} {s : Store} {r : ArchiveOutcome} (hs : s.Reachable)
    (h : reconcile { settings := settings, here := here, locked := locked } id merge verbose m
      (w.closedOn s) = .ok r u) :
    ∃ r' u',
      reconcile { settings := settings, here := here, locked := locked } id merge verbose m u =
        .ok r' u' ∧
      u'.unit = u.unit ∧ u'.tree = u.tree ∧
      r' =
        { archive := r.archive
          sources := r.sources.map fun o => { inserted := 0, deleted := 0, skipped := o.skipped }
          images := r.images.map fun _ =>
            { inserted := 0, updated := 0, deleted := 0, removedFiles := 0 }
          tags := r.tags.map fun _ => { upserted := 0, inserted := 0, deleted := 0 } } := by
  obtain ⟨hid, row, hrow, w', v, -, hdone, hunit, -⟩ := reconcile_eq_ok h
  let c : Context := { settings := settings, here := here, locked := locked }
  let o := c.options merge verbose
  have hsound := hs.sound
  have hafter : (Reconcile.reconciled {} o id m s).Sound :=
    hsound.reconciled (Store.row?_hasArchive hrow) (hdone.links_once hsound.links_once)
  have hsettled : Reconcile.Settled o id m (Reconcile.reconciled {} o id m s) :=
    Reconcile.reconciled_settled hsound hdone.linkable
  have hrow' : (Reconcile.reconciled {} o id m s).row? id = some row := by
    rw [Store.row?, (Reconcile.reconciled_rest {} o id m s).1]
    exact hrow
  have hu : u.closedOn (Reconcile.reconciled {} o id m s) = u :=
    (Workspace.closedOn_of_closed hunit).trans (Workspace.calm_of_calm (reconcile_calm h))
  obtain ⟨v', hv', hpass⟩ := hsettled.archive_on hafter hid
    (fun ts hm => (hdone.bindable ts hm).lookUp) (fun is hm => (hdone.storable is hm).put)
    (some c.files) row.hash
      ((u.told (.reconciling id m)).closedOn (Reconcile.reconciled {} o id m s))
  have hrun := reconcile_ok (c := c) (w := u) hid hrow' hpass
  rw [hu] at hrun
  refine ⟨_, _, hrun, hunit.symm, hv', ?_⟩
  rw [hdone.outcome]
  exact Reconcile.idleOutcome_eq hsound _ _ _

theorem Service.sample_twice : ∃ r u r' u',
    reconcile .sample 1 false false .sample (Workspace.closedOn {} .withFirst) = .ok r u ∧
      reconcile .sample 1 false false .sample u = .ok r' u' ∧ u'.unit = u.unit ∧
      u'.tree = u.tree ∧
      r' =
        { archive := r.archive
          sources := r.sources.map fun o => { inserted := 0, deleted := 0, skipped := o.skipped }
          images := r.images.map fun _ =>
            { inserted := 0, updated := 0, deleted := 0, removedFiles := 0 }
          tags := r.tags.map fun _ => { upserted := 0, inserted := 0, deleted := 0 } } := by
  obtain ⟨r, u, hrun⟩ := Work.eq_ok_of_returns (x := reconcile .sample 1 false false .sample)
    (w := Workspace.closedOn {} .withFirst) (by decide +kernel)
  obtain ⟨r', u', hagain⟩ := reconcile_idempotent Store.withFirst_reachable hrun
  exact ⟨r, u, r', u', hrun, hagain⟩

end GalleryCatalog
