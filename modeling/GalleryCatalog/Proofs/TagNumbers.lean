import GalleryCatalog.Proofs.ReachableStore
import GalleryCatalog.Proofs.Reconciliation
import GalleryCatalog.Proofs.StaleLookup

/-!
# Numbers of tags

Rows of tags only come, and each takes the next number. So in a reachable store the highest
number is the count of the rows, and as long as this count stays in range, numbers do not run
out.
-/

set_option autoImplicit false

namespace GalleryCatalog

/-- The tags of a store are numbered by counting them. -/
structure Store.CountsTags (s : Store) : Prop where
  positive : ∀ r ∈ s.tags, 0 < r.id
  next : nextId (s.tags.map TagRow.id) = s.tags.length + 1

namespace Store

theorem withTags_tags_congr {s t : Store} (h : s.tags = t.tags) (tags : List Tag) :
    (tags.foldl withTag s).tags = (tags.foldl withTag t).tags := by
  induction tags generalizing s t with
  | nil => exact h
  | cons x tags ih =>
    apply ih
    unfold withTag putTag
    rw [h]
    split
    · exact h
    · rfl

theorem withTags_tagged (tags : List Tag) (s : Store) (x : Tag) :
    (∃ r ∈ (tags.foldl withTag s).tags, r.tag = x) ↔ (∃ r ∈ s.tags, r.tag = x) ∨ x ∈ tags := by
  induction tags generalizing s with
  | nil => simp
  | cons t tags ih =>
    rw [List.foldl_cons, ih, List.mem_cons, ← or_assoc]
    apply or_congr_left
    rcases withTag_tags s t with ⟨hsame, hrow⟩ | ⟨hnew, -⟩
    · rw [hsame, iff_self_or]
      rintro rfl
      exact hrow
    · simp [hnew, or_and_right, exists_or, eq_comm]

theorem RoomForTags.of_tags {s t : Store} {n : Nat} (h : s.RoomForTags n)
    (htags : t.tags = s.tags) : t.RoomForTags n where
  held := htags ▸ h.held
  more := htags ▸ h.more

theorem Sound.tagsKeyed {s : Store} (h : s.Sound) : s.TagsKeyed :=
  ⟨h.tag_ids, h.tags_once⟩

theorem withTag_counts {s : Store} (h : s.CountsTags) (t : Tag) : (s.withTag t).CountsTags := by
  rcases withTag_tags s t with ⟨hsame, -⟩ | ⟨hnew, -⟩
  · exact ⟨hsame ▸ h.positive, hsame ▸ h.next⟩
  · have hnext := h.next
    constructor <;> rw [hnew]
    · intro r hr
      rcases List.mem_append.mp hr with hold | hadded
      · exact h.positive r hold
      · obtain rfl := List.mem_singleton.mp hadded
        change 0 < nextId (s.tags.map TagRow.id)
        omega
    · rw [List.map_append, List.map_singleton, nextId_append, List.length_append,
        List.length_singleton]
      omega

theorem withTags_counts {s : Store} (h : s.CountsTags) (tags : List Tag) :
    (tags.foldl withTag s).CountsTags := by
  induction tags generalizing s with
  | nil => exact h
  | cons t tags ih => exact ih (withTag_counts h t)

theorem CountsTags.room {s : Store} (h : s.CountsTags) {more : Nat}
    (hmore : s.tags.length + more < 0x8000000000000000) : s.RoomForTags more := by
  have hnext := h.next
  constructor
  · intro r hr
    have hpos := h.positive r hr
    have hlt := lt_nextId (List.mem_map_of_mem (f := TagRow.id) hr)
    rw [fits_iff]
    omega
  · omega

end Store

namespace Reconcile

/-- The tags that a reconciliation wants. -/
def wantedTags (o : Options) (m : Metadata) : List Tag :=
  match m.tags with
  | none => []
  | some ts => normalizeTags o.tagRules ts

theorem reconciled_tags (answers : TagAnswers) (o : Options) (id : Int) (m : Metadata)
    (s : Store) :
    (reconciled answers o id m s).tags = ((wantedTags o m).foldl Store.withTag s).tags := by
  have hsourced := (sourced_rest o id m s).2.2.1
  rw [(reconciled_rest answers o id m s).2.2.1]
  unfold tagged wantedTags
  cases m.tags with
  | none => exact hsourced
  | some ts =>
    dsimp only
    rw [afterTags_tags, upsertedTags_eq]
    exact Store.withTags_tags_congr hsourced _

end Reconcile

/-- Jobs preserve what a new archive and every reconciliation that returns leave so. -/
theorem Job.preserve_of_parts {P : Store → Prop}
    (harchive : ∀ (s : Store) (row : ArchiveRow), P s → P (s.withArchive row))
    (hreconcile : ∀ (job : Job) (p : Reconciliation) (w u : Workspace) (s : Store) (r : Returned),
      P s → job.reconciliation? = some p → job.run (w.closedOn s) = .ok r u → P u.unit.committed) :
    Preserve P := by
  intro job w u s r hs h
  cases hp : job.reconciliation? with
  | none =>
    cases job with
    | createArchive now hash title =>
      obtain ⟨a, hrun, -⟩ := Work.map_eq_ok.mp h
      obtain ⟨row, hunit, -⟩ := Service.createArchive_eq_ok hrun
      rw [hunit]
      exact harchive s row hs
    | _ => cases hp
  | some p => exact hreconcile job p w u s r hs hp h

theorem Job.preserve_counts : Preserve Store.CountsTags := by
  refine preserve_of_parts (fun s row hs => ⟨hs.positive, hs.next⟩) ?_
  intro job p w u s r hs hp h
  have hreturns := Reconciliation.returns_of_run hp h
  rw [hreturns.unit]
  have hcounts := Store.withTags_counts hs (Reconcile.wantedTags p.options p.metadata)
  have htags := Reconcile.reconciled_tags p.context.answers p.options p.archive p.metadata s
  exact ⟨htags ▸ hcounts.positive, htags ▸ hcounts.next⟩

/-- In a reachable store there is room for tags until their count leaves the range of the
column. -/
theorem Store.Reachable.room {s : Store} (h : s.Reachable) {more : Nat}
    (hmore : s.tags.length + more < 0x8000000000000000) : s.RoomForTags more := by
  have hcounts : s.CountsTags := h.keeps ⟨by simp, rfl⟩ Job.preserve_counts
  exact hcounts.room hmore

end GalleryCatalog
