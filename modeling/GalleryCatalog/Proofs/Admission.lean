import GalleryCatalog.Proofs.TagNumbers

/-!
# How reconciliations end

With numbers for the tags that it wants, a reconciliation returns unless its archive is
missing, an integer of its images is out of range, or there is more than one statement takes.
All this is seen from what is stored of the archive, but for the tags that have no row yet. So
it is settled beforehand how a reconciliation ends and which store it leaves.
-/

set_option autoImplicit false

namespace GalleryCatalog

open Reconcile

namespace Reconciliation

/-- The tags that an archive is to be linked to. -/
def wanted (p : Reconciliation) : List Tag :=
  wantedTags p.options p.metadata

/-- The upsert of a reconciliation shows the rows of all its tags. -/
def ShowsUpserts (p : Reconciliation) : Prop :=
  ∀ r, p.context.answers.upserted r = true

/-- The wanted tags that a look-up does not show. -/
def newTags (p : Reconciliation) (s : Store) : List Tag :=
  missingTags (foundTags p.context.answers p.wanted s) p.wanted

/-- Why the images that come, or the pages that go, are refused, if they are. -/
def imagesRefusal? (p : Reconciliation) (s : Store) : Option StoreError :=
  match p.metadata.images with
  | none => none
  | some is =>
    (Store.imageRefusal? (winners is)).or
      (Store.pageRefusal? (stalePages (winners is) (s.imagesOf p.archive)))

/-- What a reconciliation fails with, if it does. Whether the new tags are refused is not seen
from the archive. -/
def fails? (p : Reconciliation) (full : Option StoreError) (s : Store) : Option Failure :=
  if fits p.archive then
    match s.row? p.archive with
    | none => some (.noArchive p.archive)
    | some _ => (((Store.lookUpRefusal? p.wanted).or full).or (p.imagesRefusal? s)).map refused
  else some outOfRange

/-- The store after all passes. -/
def after (p : Reconciliation) (s : Store) : Store :=
  reconciled p.context.answers p.options p.archive p.metadata s

/-- The store that a reconciliation leaves, whether or not it returns. -/
def leaves (p : Reconciliation) (full : Option StoreError) (s : Store) : Store :=
  if (p.fails? full s).isNone then p.after s else s

variable {p : Reconciliation} {s : Store}

theorem after_tags : (p.after s).tags = (p.wanted.foldl Store.withTag s).tags :=
  reconciled_tags ..

theorem fails?_row {full : Option StoreError} {row : ArchiveRow} (hid : fits p.archive = true)
    (hrow : s.row? p.archive = some row) : p.fails? full s =
      (((Store.lookUpRefusal? p.wanted).or full).or (p.imagesRefusal? s)).map refused := by
  rw [fails?, if_pos hid, hrow]

theorem leaves_congr {full full' : Option StoreError} (h : p.fails? full s = p.fails? full' s) :
    p.leaves full s = p.leaves full' s := by
  rw [leaves, h, ← leaves]

/-! ## Passes -/

/-- Work on a live view fails, or returns and leaves the view of a store. -/
def EndsOn {α : Type} (x : Work α) (w : Workspace) (s : Store) : Option Failure → Prop
  | none => ∃ a v, x w = .ok a (Workspace.on v s)
  | some f => ∃ v s', x w = .error f (Workspace.on v s')

/-- A collection that is given ends its pass as the pass over it ends. -/
theorem EndsOn.given {α β : Type} {pass : α → Work β} {a : α} {w : Workspace} {s : Store}
    {f : Option Failure} (h : EndsOn (pass a) w s f) :
    EndsOn (optionally pass (some a)) w s f := by
  cases f with
  | none =>
    obtain ⟨b, v, hpass⟩ := h
    exact ⟨some b, v, Work.bind_of_ok hpass⟩
  | some f =>
    obtain ⟨v, s', hpass⟩ := h
    exact ⟨v, s', Work.bind_of_error hpass⟩

section Passes

variable (hid : fits p.archive = true)
include hid

theorem tags_end {answers : TagAnswers} (hupserted : ∀ r, answers.upserted r = true)
    (rules : List TagRule) (incoming : List Tag) (hs : s.TagsKeyed)
    (hroom : ((normalizeTags rules incoming).foldl Store.withTag s).RoomForTags 0)
    (w : Workspace) :
    let wanted := normalizeTags rules incoming
    EndsOn (tags answers p.archive rules incoming) (w.on s) (s.afterTags answers p.archive wanted)
      (((Store.lookUpRefusal? wanted).or
        (Store.tagRefusal? (missingTags (foundTags answers wanted s) wanted))).map refused) := by
  intro wanted
  have hpass := tags_on answers p.archive rules incoming w s
  dsimp only at hpass
  cases hlookUp : Store.lookUpRefusal? wanted with
  | some e =>
    rw [hlookUp] at hpass
    exact ⟨w, s, hpass⟩
  | none =>
    cases hupsert : Store.tagRefusal? (missingTags (foundTags answers wanted s) wanted) with
    | some e =>
      rw [hlookUp, hupsert] at hpass
      exact ⟨w, s, hpass⟩
    | none =>
      exact ⟨_, w, tags_return answers hupserted hid rules incoming hs hroom
        ⟨hlookUp, hupsert⟩ w⟩

/-- The pass over tags is refused for one of its batches, or leaves its tags. -/
theorem tagsPass_ends (hshows : p.ShowsUpserts) (hs : s.TagsKeyed)
    (hroom : s.RoomForTags p.wanted.length) (w : Workspace) :
    EndsOn (optionally (tags p.context.answers p.archive p.options.tagRules) p.metadata.tags)
      (w.on (sourced p.options p.archive p.metadata s))
      (tagged p.context.answers p.options p.archive p.metadata s)
      (((Store.lookUpRefusal? p.wanted).or (Store.tagRefusal? (p.newTags s))).map refused) := by
  have htags := (sourced_rest p.options p.archive p.metadata s).2.2.1
  have hfound (wanted : List Tag) :
      foundTags p.context.answers wanted (sourced p.options p.archive p.metadata s) =
        foundTags p.context.answers wanted s := by
    rw [foundTags, foundTags, Store.tagRowsOf_eq, Store.tagRowsOf_eq, htags]
  unfold newTags
  unfold wanted wantedTags at hroom ⊢
  unfold tagged
  cases hm : p.metadata.tags with
  | none =>
    have hempty : (Store.lookUpRefusal? []).or (Store.tagRefusal? []) = none := by decide
    rw [missingTags, List.filter_nil, hempty]
    exact ⟨none, w, rfl⟩
  | some ts =>
    rw [hm] at hroom
    have hkeyed : (sourced p.options p.archive p.metadata s).TagsKeyed :=
      ⟨htags ▸ hs.ids, htags ▸ hs.once⟩
    have hpass := tags_end hid hshows p.options.tagRules ts hkeyed
      (Store.withTags_room (n := 0) _ (hroom.of_tags htags)) w
    dsimp only at hpass ⊢
    rw [hfound] at hpass
    exact hpass.given

/-- The pass over images is refused, or ends on the store after all passes. -/
theorem imagesPass_ends (row : ArchiveRow) (w : Workspace) :
    EndsOn (optionally (images p.archive row.hash (some p.context.files)
        p.options.removeOnUpdate) p.metadata.images)
      (w.on (tagged p.context.answers p.options p.archive p.metadata s)) (p.after s)
      ((p.imagesRefusal? s).map refused) := by
  unfold imagesRefusal? after reconciled
  cases p.metadata.images with
  | none => exact ⟨none, w, rfl⟩
  | some is =>
    have hpass := images_on hid row.hash (some p.context.files) p.options.removeOnUpdate is w
      (tagged p.context.answers p.options p.archive p.metadata s)
    rw [tagged_imagesOf] at hpass
    apply EndsOn.given
    dsimp only at hpass ⊢
    cases hput : Store.imageRefusal? (winners is) with
    | some e =>
      rw [hput] at hpass
      exact ⟨_, _, hpass⟩
    | none =>
      rw [hput] at hpass
      cases hdelete : Store.pageRefusal? (stalePages (winners is) (s.imagesOf p.archive)) with
      | some e =>
        rw [hdelete] at hpass
        exact ⟨_, _, hpass⟩
      | none =>
        rw [hdelete] at hpass
        exact ⟨_, _, hpass⟩

/-- Sources never stop a reconciliation. -/
theorem passes_end (hshows : p.ShowsUpserts) (hs : s.TagsKeyed)
    (hroom : s.RoomForTags p.wanted.length) (row : ArchiveRow) (w : Workspace) :
    EndsOn (p.passes row) (w.on s) (p.after s)
      ((((Store.lookUpRefusal? p.wanted).or (Store.tagRefusal? (p.newTags s))).or
        (p.imagesRefusal? s)).map refused) := by
  obtain ⟨v, -, hsources⟩ := sources_done hid p.options p.metadata w s
  have htags := tagsPass_ends hid hshows hs hroom v
  cases hrefused : (Store.lookUpRefusal? p.wanted).or (Store.tagRefusal? (p.newTags s)) with
  | some e =>
    rw [hrefused] at htags
    obtain ⟨u, s', htags⟩ := htags
    exact ⟨u, s', (Work.bind_of_ok hsources).trans (Work.bind_of_error htags)⟩
  | none =>
    rw [hrefused] at htags
    obtain ⟨tagPart, u, htags⟩ := htags
    have himages := imagesPass_ends hid row (s := s) u
    rw [Option.none_or]
    cases hstop : p.imagesRefusal? s with
    | some e =>
      rw [hstop] at himages
      obtain ⟨u', s', himages⟩ := himages
      exact ⟨u', s', (Work.bind_of_ok hsources).trans
        ((Work.bind_of_ok htags).trans (Work.bind_of_error himages))⟩
    | none =>
      rw [hstop] at himages
      obtain ⟨imagePart, u', himages⟩ := himages
      exact ⟨_, u', (Work.bind_of_ok hsources).trans
        ((Work.bind_of_ok htags).trans (Work.bind_of_ok himages))⟩

end Passes

/-! ## Calls -/

section Calls

variable (hshows : p.ShowsUpserts) (hs : s.TagsKeyed) (hroom : s.RoomForTags p.wanted.length)
include hshows hs hroom

theorem run_stopped {f : Failure}
    (hf : p.fails? (Store.tagRefusal? (p.newTags s)) s = some f) (w : Workspace) :
    ∃ u, p.job.run (w.closedOn s) = .error f u := by
  by_cases hid : fits p.archive = true
  · cases hrow : s.row? p.archive with
    | none =>
      rw [fails?, if_pos hid, hrow] at hf
      obtain rfl := Option.some.inj hf
      exact ⟨_, run_of_service (Service.inUnit_error (Service.onRow_unknown hid hrow _ _) rfl rfl)⟩
    | some row =>
      have hpasses := passes_end hid hshows hs hroom row (p.begun w s)
      rw [← fails?_row hid hrow, hf] at hpasses
      obtain ⟨v, s', hpasses⟩ := hpasses
      exact run_error hid hrow hpasses
  · rw [fails?, if_neg hid] at hf
    obtain rfl := Option.some.inj hf
    exact ⟨_, run_of_service (Service.inUnit_error (Service.onRow_unfit hid _ _ _) rfl rfl)⟩

theorem run_unstopped (hf : p.fails? (Store.tagRefusal? (p.newTags s)) s = none)
    (w : Workspace) :
    ∃ r v, p.job.run (w.closedOn s) = .ok r (Workspace.closedOn v (p.after s)) := by
  by_cases hid : fits p.archive = true
  · cases hrow : s.row? p.archive with
    | none =>
      rw [fails?, if_pos hid, hrow] at hf
      cases hf
    | some row =>
      have hpasses := passes_end hid hshows hs hroom row (p.begun w s)
      rw [← fails?_row hid hrow, hf] at hpasses
      obtain ⟨o, v, hpasses⟩ := hpasses
      exact ⟨.all o, v.told (.finished o), run_ok hid hrow hpasses⟩
  · rw [fails?, if_neg hid] at hf
    cases hf

/-- How a call ends, and which store it leaves, is settled by the store that it finds. -/
theorem run_outcome (w : Workspace) :
    let full := Store.tagRefusal? (p.newTags s)
    Work.failure? p.job.run (w.closedOn s) = p.fails? full s ∧
      ∃ v, Work.left p.job.run (w.closedOn s) = Workspace.closedOn v (p.leaves full s) := by
  intro full
  unfold leaves
  cases hf : p.fails? full s with
  | some f =>
    obtain ⟨u, hrun⟩ := run_stopped hshows hs hroom hf w
    obtain ⟨v, rfl⟩ := eq_of_run_error hrun
    exact ⟨by rw [Work.failure?, hrun], v, Work.left_of_error hrun⟩
  | none =>
    obtain ⟨r, v, hrun⟩ := run_unstopped hshows hs hroom hf w
    exact ⟨by rw [Work.failure?, hrun], v, Work.left_of_ok hrun⟩

/-- What is given in the metadata is small enough, and so is what it replaces. -/
theorem run_returns (hid : fits p.archive = true) (hrow : (s.row? p.archive).isSome = true)
    (hlookUp : (Store.composites p.wanted).size + 1 ≤ parameterLimit)
    (hnew : 2 * (p.newTags s).length ≤ parameterLimit)
    (himages : ∀ is ∈ p.metadata.images, Storable p.archive is s) (w : Workspace) :
    ∃ r v, p.job.run (w.closedOn s) = .ok r (Workspace.closedOn v (p.after s)) := by
  apply run_unstopped hshows hs hroom
  obtain ⟨row, hrow⟩ := Option.isSome_iff_exists.mp hrow
  have hstorable : p.imagesRefusal? s = none := by
    unfold imagesRefusal?
    cases hm : p.metadata.images with
    | none => rfl
    | some is =>
      obtain ⟨hput, hdelete⟩ := himages is hm
      simp [hput, hdelete]
  rw [fails?_row hid hrow, Store.lookUpRefusal?_eq_none.mpr hlookUp,
    Store.tagRefusal?_eq_none.mpr hnew, hstorable]
  rfl

end Calls

/-! ## What a call leaves -/

theorem after_sound (hs : s.Sound) (ha : s.HasArchive p.archive) : (p.after s).Sound := by
  apply hs.reconciled ha
  obtain ⟨-, -, htags, hlinks⟩ := sourced_rest p.options p.archive p.metadata s
  unfold tagged
  cases p.metadata.tags with
  | none => exact hlinks ▸ hs.links_once
  | some ts =>
    exact afterTags_links_nodup p.context.answers p.archive
      ⟨htags ▸ hs.tag_ids, htags ▸ hs.tags_once⟩ (hlinks ▸ hs.links_once)
      (normalizeTags_nodup p.options.tagRules ts)

theorem hasArchive_of_returns {full : Option StoreError} (h : p.fails? full s = none) :
    s.HasArchive p.archive := by
  unfold fails? at h
  split_ifs at h
  cases hrow : s.row? p.archive with
  | none =>
    rw [hrow] at h
    cases h
  | some row => exact Store.row?_hasArchive hrow

theorem leaves_sound (full : Option StoreError) (hs : s.Sound) : (p.leaves full s).Sound := by
  unfold leaves
  split_ifs with h
  · exact after_sound hs (hasArchive_of_returns (Option.isNone_iff_eq_none.mp h))
  · exact hs

theorem leaves_room {n : Nat} (full : Option StoreError)
    (hroom : s.RoomForTags (p.wanted.length + n)) : (p.leaves full s).RoomForTags n := by
  unfold leaves
  split_ifs
  · exact (Store.withTags_room _ hroom).of_tags after_tags
  · exact hroom.mono (Nat.le_add_left n _)

end Reconciliation

end GalleryCatalog
