import GalleryCatalog.Proofs.Convergence
import GalleryCatalog.Proofs.FailedWrites
import GalleryCatalog.Proofs.FirstOf
import GalleryCatalog.Proofs.TagNumbers

/-!
# Tags that are not resolved

A pass over tags links the wanted tags that were not linked, and needs a row for each of them.
It knows the rows that the look-up and the upsert have shown. When one of these tags is in
neither answer, the pass fails with the first such tag. By then the missing tags have rows and
the stale links are gone. A service whose pass fails so commits nothing of this.
-/

set_option autoImplicit false

namespace GalleryCatalog

namespace Store

/-- An archive is not linked to a tag, and no row of the tag is shown. -/
def Unresolved (s : Store) (archive : Int) (shown : List TagRow) (t : Tag) : Prop :=
  ¬ s.LinksTag archive t ∧ ∀ r ∈ shown, r.tag ≠ t

/-- The numbers of tags that archives are linked to fit their column. -/
def LinksFit (s : Store) : Prop :=
  ∀ l ∈ s.links, fits l.tag = true

theorem LinksFit.of_links {s t : Store} (h : s.LinksFit) (hlinks : t.links = s.links) :
    t.LinksFit :=
  fun l hl => h l (hlinks ▸ hl)

end Store

namespace Reconcile

open Store

/-- The store when a pass has put its tags and dropped the links to tags that are not wanted. -/
def halfDone (answers : TagAnswers) (archive : Int) (wanted : List Tag) (s : Store) : Store :=
  (staleLinks wanted ((upsertedTags answers wanted s).linksOf archive)).foldl
    (withoutLink archive) (upsertedTags answers wanted s)

section HalfDone

variable (answers : TagAnswers) (id : Int) (wanted : List Tag) (s : Store)

theorem halfDone_tags :
    (halfDone answers id wanted s).tags = (upsertedTags answers wanted s).tags :=
  Work.foldl_view (f := withoutLink id) Store.tags (fun _ _ => rfl) _ _

theorem halfDone_links {l : LinkRow} :
    l ∈ (halfDone answers id wanted s).links ↔ l ∈ (upsertedTags answers wanted s).links ∧
      ∀ r ∈ staleLinks wanted ((upsertedTags answers wanted s).linksOf id), l ≠ ⟨id, r.id⟩ :=
  mem_withoutLinks

/-- Every wanted tag has a row. -/
theorem halfDone_rows {wanted : List Tag} {t : Tag} (ht : t ∈ wanted) :
    ∃ r ∈ (halfDone answers id wanted s).tags, r.tag = t := by
  rw [halfDone_tags, upsertedTags_eq]
  exact withTags_row ht s

end HalfDone

/-! ## Numbers of tags -/

theorem idOf?_isNone {rows : List TagRow} {t : Tag} :
    (idOf? rows t).isNone = true ↔ ∀ r ∈ rows, r.tag ≠ t := by
  rw [Option.isNone_iff_eq_none]
  constructor
  · intro hnone r hr htag
    have hsome := idOf?_isSome ⟨r, hr, htag⟩
    simp [hnone] at hsome
  · intro hno
    by_contra hne
    obtain ⟨n, hn⟩ := Option.ne_none_iff_exists'.mp hne
    obtain ⟨r, hr, htag, -⟩ := idOf?_eq_some hn
    exact hno r hr htag

/-- The tags to be linked are gone through up to the first that has no row. -/
theorem idsOf_eq_error {archive : Int} {known : List TagRow} {ts : List Tag} {w v : Workspace}
    {f : Failure} :
    idsOf archive known ts w = .error f v ↔
      v = w ∧ ∃ t, ts.find? (fun t => (idOf? known t).isNone) = some t ∧
        f = .tagWithoutRow archive t := by
  induction ts with
  | nil => simp [idsOf, pure, EStateM.pure]
  | cons t ts ih =>
    unfold idsOf
    cases hid : idOf? known t with
    | none => simp [hid, eq_comm, and_comm]
    | some n =>
      have hpure : ∀ ids u, ¬ (pure (n :: ids) : Work (List Int)) u = .error f v := by
        intro ids u h
        cases h
      simp only [List.find?_cons, hid, Option.isNone_some, ← ih, Work.bind_eq_error, hpure,
        and_false, exists_false, or_false]

section Pass

variable {answers : TagAnswers} {id : Int} {wanted : List Tag} {s : Store}

/-- A stale row is the row that a link leads to. -/
theorem stale_fits (hs : s.LinksFit) :
    ∀ r ∈ staleLinks wanted ((upsertedTags answers wanted s).linksOf id), fits r.id = true := by
  intro r hr
  obtain ⟨l, hl, -, hlinked⟩ := mem_linksOf.mp (List.mem_filter.mp hr).1
  have hid : r.id = l.tag := by simpa using List.find?_some hlinked
  rw [upsertedTags_links] at hl
  exact hid ▸ hs l hl

/-- From the half done store on, a pass looks for the rows of the tags to be linked and links
them. -/
theorem tags_halfDone (hid : fits id = true) (hs : s.LinksFit) {rules : List TagRule}
    {incoming : List Tag} (hbind : Bindable answers (normalizeTags rules incoming) s)
    (w : Workspace) :
    let wanted := normalizeTags rules incoming
    tags answers id rules incoming (w.on s) =
      (do
        let ids ← idsOf id (knownTags answers wanted s)
          (freshTags wanted ((upsertedTags answers wanted s).linksOf id))
        Work.access (Repository.addLinks id ids)
        return { tagOutcome answers id wanted s with inserted := ids.length })
        (w.on (halfDone answers id wanted s)) := by
  intro wanted
  rw [hbind.tags_on]
  refine (Work.bind_of_ok (listLinks_on hid w (upsertedTags answers wanted s))).trans ?_
  exact Work.bind_of_ok (deleteLinks_on hid (stale_fits hs) w _)

/-- A pass that returns has met only numbers that fit. -/
theorem freshIds_fit (hid : fits id = true) (hs : s.LinksFit) {rules : List TagRule}
    {incoming : List Tag} {w v : Workspace} {o : TagOutcome}
    (h : tags answers id rules incoming (w.on s) = .ok o v) :
    ∀ n ∈ freshIds answers id (normalizeTags rules incoming) s, fits n = true := by
  rw [tags_halfDone hid hs (tags_bindable h)] at h
  obtain ⟨ids, u, hids, h⟩ := Work.bind_eq_ok.mp h
  obtain ⟨rfl, rfl, -⟩ := idsOf_eq_ok hids
  obtain ⟨_, u, hadd, -⟩ := Work.bind_eq_ok.mp h
  unfold Repository.addLinks at hadd
  split_ifs at hadd with hnil
  · have hnone : freshIds answers id (normalizeTags rules incoming) s = [] := hnil
    simp [hnone]
  · obtain ⟨s', hadded, -⟩ := Work.access_eq_ok.mp hadd
    exact fun n hn => ((addLinks_canLink hadded).inRange n hn).2

theorem afterTags_linksFit (hs : s.LinksFit)
    (hfresh : ∀ n ∈ freshIds answers id wanted s, fits n = true) :
    (s.afterTags answers id wanted).LinksFit := by
  intro l hl
  rcases mem_afterTags_links.mp hl with ⟨hold, -⟩ | ⟨n, hn, rfl⟩
  · exact hs l hold
  · exact hfresh n hn

/-- A pass fails for want of a row exactly when a tag to be linked is not known, and with the
first such tag. -/
theorem tags_eq_tagWithoutRow (hid : fits id = true) (hs : s.LinksFit) {rules : List TagRule}
    {incoming : List Tag} (hbind : Bindable answers (normalizeTags rules incoming) s)
    {w v : Workspace} {a : Int} {t : Tag} :
    let wanted := normalizeTags rules incoming
    tags answers id rules incoming (w.on s) = .error (.tagWithoutRow a t) v ↔
      a = id ∧ v = w.on (halfDone answers id wanted s) ∧
        (freshTags wanted ((upsertedTags answers wanted s).linksOf id)).find?
          (fun t => (idOf? (knownTags answers wanted s) t).isNone) = some t := by
  intro wanted
  rw [tags_halfDone hid hs hbind, Work.bind_eq_error, idsOf_eq_error]
  constructor
  · rintro (⟨rfl, x, hx, hf⟩ | ⟨ids, u, -, hlink⟩)
    · obtain ⟨rfl, rfl⟩ := Failure.tagWithoutRow.inj hf
      exact ⟨rfl, rfl, hx⟩
    · -- the numbers were found, and links fail for another reason
      rcases Work.bind_eq_error.mp hlink with hadd | ⟨_, u', -, hreturn⟩
      · obtain ⟨e, he⟩ := Work.access_eq_error hadd
        cases he
      · cases hreturn
  · rintro ⟨rfl, rfl, hfirst⟩
    exact .inl ⟨rfl, t, hfirst, rfl⟩

end Pass

section Sound

variable (answers : TagAnswers) (id : Int) (wanted : List Tag) {s : Store} (hs : s.Sound)
include hs

theorem upserted_linksTag (t : Tag) :
    (upsertedTags answers wanted s).LinksTag id t ↔ s.LinksTag id t := by
  have hids := upsertedTags_ids answers wanted hs.tag_ids
  unfold LinksTag
  rw [upsertedTags_links]
  constructor
  · rintro ⟨l, hl, ha, r, hr, hid, htag⟩
    obtain ⟨r', hr', hid', -⟩ := upserted_linkedTag? answers wanted hs hl
    obtain rfl : r' = r := List.inj_on_of_nodup_map hids (withTags_subset _ s hr') hr
      (hid'.trans hid.symm)
    exact ⟨l, hl, ha, r', hr', hid, htag⟩
  · rintro ⟨l, hl, ha, r, hr, hid, htag⟩
    exact ⟨l, hl, ha, r, withTags_subset _ s hr, hid, htag⟩

/-- The first tag to be linked of which no row is known is the first one that is not resolved. -/
theorem firstFresh_iff {t : Tag} :
    (freshTags wanted ((upsertedTags answers wanted s).linksOf id)).find?
        (fun t => (idOf? (knownTags answers wanted s) t).isNone) = some t ↔
      FirstOf wanted (s.Unresolved id (knownTags answers wanted s)) t := by
  rw [freshTags, List.find?_filter]
  refine firstOf_iff fun x _ => ?_
  rw [decide_eq_true_iff, Bool.not_eq_true', ← Bool.not_eq_true, hasTag_iff,
    ← linksTag_iff (upsertedTags_ids answers wanted hs.tag_ids), upserted_linksTag answers id wanted hs,
    idOf?_isNone]
  rfl

/-- Of the links of the archive those to wanted tags are left. -/
theorem halfDone_linksTag (t : Tag) :
    (halfDone answers id wanted s).LinksTag id t ↔ s.LinksTag id t ∧ t ∈ wanted := by
  have hids := upsertedTags_ids answers wanted hs.tag_ids
  rw [← upserted_linksTag answers id wanted hs]
  unfold LinksTag
  simp only [halfDone_tags, halfDone_links]
  constructor
  · rintro ⟨l, ⟨hl, hkept⟩, ha, r, hr, hid, rfl⟩
    refine ⟨⟨l, hl, ha, r, hr, hid, rfl⟩, ?_⟩
    -- were the tag not wanted, its row would be stale and the link gone
    by_contra hunwanted
    have hlinked : r ∈ (upsertedTags answers wanted s).linksOf id :=
      mem_linksOf.mpr ⟨l, hl, ha, (linkedTag?_eq_some hids).mpr ⟨hr, hid⟩⟩
    refine hkept r (List.mem_filter.mpr ⟨hlinked, by simpa using hunwanted⟩) ?_
    rw [← ha, hid]
  · rintro ⟨⟨l, hl, ha, r, hr, hid, rfl⟩, hwanted⟩
    refine ⟨l, ⟨hl, ?_⟩, ha, r, hr, hid, rfl⟩
    rintro r' hstale rfl
    obtain ⟨hr', hunwanted⟩ := List.mem_filter.mp hstale
    obtain ⟨l', -, -, hlinked⟩ := mem_linksOf.mp hr'
    obtain rfl : r = r' :=
      List.inj_on_of_nodup_map hids hr ((linkedTag?_eq_some hids).mp hlinked).1 hid
    simp [hwanted] at hunwanted

end Sound

end Reconcile

/-! ## Reachable stores -/

open Reconcile (reconciled sourced tagged)

/-- A job that has returned has run its pass over tags. -/
theorem Reconciliation.tagPass_of_run {job : Job} {p : Reconciliation} {w u : Workspace}
    {s : Store} {r : Returned} (hp : job.reconciliation? = some p)
    (h : job.run (w.closedOn s) = .ok r u) {ts : List Tag} (hm : p.metadata.tags = some ts) :
    ∃ (w' v : Workspace) (o : TagOutcome),
      Reconcile.tags p.context.answers p.archive p.options.tagRules ts
        (w'.on (sourced p.options p.archive p.metadata s)) = .ok o v := by
  cases job with
  | createArchive now hash title => cases hp
  | syncSources c id merge verbose xs =>
    obtain rfl := Option.some.inj hp
    cases hm
  | syncImages c id is =>
    obtain rfl := Option.some.inj hp
    cases hm
  | syncTags c id ts =>
    obtain rfl := Option.some.inj hp
    obtain rfl := Option.some.inj hm
    obtain ⟨o, hservice, -⟩ := Work.map_eq_ok.mp h
    obtain ⟨-, row, -, v, s', hrun, -⟩ :=
      Service.forArchive_eq_ok (fun _ => Reconcile.tags_within _ _ _ _) hservice
    exact ⟨_, _, o, hrun⟩
  | reconcile c id merge verbose m =>
    obtain rfl := Option.some.inj hp
    obtain ⟨o, hservice, -⟩ := Work.map_eq_ok.mp h
    rw [Service.reconcile_told] at hservice
    obtain ⟨o', u', hwith, -⟩ := Work.bind_eq_ok.mp hservice
    obtain ⟨hid, row, hrow, v, s', hrun, -⟩ :=
      Service.forArchive_eq_ok (fun _ => Reconcile.archive_within _ _ _ _ _ _) hwith
    obtain ⟨-, rfl⟩ := Store.row?_mem hrow
    obtain ⟨w', -, hsources⟩ := Reconcile.sources_done hid (c.options merge verbose) m _ s
    unfold Reconcile.archive at hrun
    rw [Work.bind_of_ok hsources] at hrun
    obtain ⟨part, v', htags, -⟩ := Work.bind_eq_ok.mp hrun
    rcases Reconcile.optionally_eq_ok.mp htags with ⟨hnone, -⟩ | ⟨ts', b, hsome, -, hpass⟩
    · cases hnone.symm.trans hm
    · obtain rfl := Option.some.inj (hsome.symm.trans hm)
      exact ⟨w', v', b, hpass⟩

theorem Job.preserve_linksFit : Preserve Store.LinksFit := by
  refine preserve_of_parts (fun s row hs => hs) ?_
  intro job p w u s r hs hp h
  have hreturns := Reconciliation.returns_of_run hp h
  have hsourced := hs.of_links
    (Reconcile.sourced_rest p.options p.archive p.metadata s).2.2.2
  rw [hreturns.unit]
  refine Store.LinksFit.of_links ?_ (Reconcile.reconciled_rest ..).2.2.2
  cases hm : p.metadata.tags with
  | none => simpa only [tagged, hm] using hsourced
  | some ts =>
    obtain ⟨w', v, o, hpass⟩ := Reconciliation.tagPass_of_run hp h hm
    have hfresh := Reconcile.freshIds_fit hreturns.integer hsourced hpass
    simpa only [tagged, hm] using Reconcile.afterTags_linksFit hsourced hfresh

/-- A reachable store is linked only to numbers that fit. -/
theorem Store.Reachable.linksFit {s : Store} (h : s.Reachable) : s.LinksFit :=
  h.keeps (by simp [LinksFit]) Job.preserve_linksFit

/-- A call that fails leaves every store as it was. -/
theorem Call.error_storeOf {p q : Application} {e : Engine} {terms : Terms} {c : Call}
    {f : Failure} (hp : p.Serves e) (h : c.perform terms p = .error f q) (e' : Engine) :
    q.storeOf e' = p.storeOf e' := by
  rcases perform_eq_error hp h with hreads | ⟨job, p', w, -, hreads, hrun, rfl⟩
  · exact hreads.storeOf e'
  · rw [Application.storeOf_after, Job.run_error (hreads.workspace_unit e) hrun]
    split_ifs with he
    · rw [he, UnitOfWork.closed_committed]
    · exact hreads.storeOf e'

namespace Reconcile

/-- A number that no column holds ends a pass before it needs rows. -/
theorem tags_outOfRange {id : Int} (hid : ¬ fits id = true) {answers : TagAnswers}
    {rules : List TagRule} {incoming : List Tag} {s : Store}
    (hbind : Bindable answers (normalizeTags rules incoming) s) (w : Workspace) :
    ∃ v, tags answers id rules incoming (w.on s) = .error outOfRange v := by
  rw [hbind.tags_on]
  exact ⟨_, Work.bind_of_error (listLinks_error hid ..)⟩

/-- A pass with a batch that is too large is refused, and needs no rows. -/
theorem tags_tooMany {answers : TagAnswers} {rules : List TagRule} {incoming : List Tag}
    {s : Store} (h : ¬ Bindable answers (normalizeTags rules incoming) s) (id : Int)
    (w : Workspace) :
    tags answers id rules incoming (w.on s) = .error (refused .tooManyParameters) (w.on s) := by
  rw [tags_on]
  dsimp only
  cases hlookUp : Store.lookUpRefusal? (normalizeTags rules incoming) with
  | some e =>
    rw [refusal?_nil hlookUp]
  | none =>
    cases hupsert : Store.tagRefusal? (missingTags (foundTags answers
        (normalizeTags rules incoming) s) (normalizeTags rules incoming)) with
    | some e => rw [refusal?_nil hupsert]
    | none => exact absurd ⟨hlookUp, hupsert⟩ h

/-- A pass on a sound store fails for want of a row exactly with the first tag that is not
resolved, on the half done store. -/
theorem tags_eq_unresolved {answers : TagAnswers} (id : Int) {s : Store} (hs : s.Sound)
    (hlinks : s.LinksFit) {rules : List TagRule} {incoming : List Tag}
    (hbind : Bindable answers (normalizeTags rules incoming) s) {w v : Workspace} {a : Int}
    {t : Tag} :
    let wanted := normalizeTags rules incoming
    tags answers id rules incoming (w.on s) = .error (.tagWithoutRow a t) v ↔
      fits id = true ∧ a = id ∧ v = w.on (halfDone answers id wanted s) ∧
        FirstOf wanted (s.Unresolved id (knownTags answers wanted s)) t := by
  intro wanted
  by_cases hid : fits id = true
  · refine (tags_eq_tagWithoutRow hid hlinks hbind).trans ?_
    rw [firstFresh_iff answers id wanted hs]
    simp only [hid, true_and]
    rfl
  · obtain ⟨u, hrange⟩ := tags_outOfRange hid hbind w
    simp [hrange, hid, outOfRange, refused]

/-- What the upsert shows makes up for what the look-up has left out. -/
theorem resolved_of_upserted {answers : TagAnswers} (hall : ∀ r, answers.upserted r = true)
    {id : Int} {wanted : List Tag} {s : Store} {t : Tag} (ht : t ∈ wanted) :
    ¬ s.Unresolved id (knownTags answers wanted s) t := by
  rintro ⟨-, hunknown⟩
  obtain ⟨r, hr, htag⟩ := knownTags_shows hall ht
  exact hunknown r hr htag

/-- Let a pass over tags run on a reachable store, whatever rows its look-up and its upsert show.
It fails for want of a row exactly when a wanted tag to which the archive is not linked is in
neither answer, and with the first such tag. By then all wanted tags have rows and the links to
others are gone. An upsert that shows every row excludes this failure. A pass with too many tags
for its look-up or its upsert comes to none of this. A call of a service that ends for want of a
row leaves all stores as they were. -/
theorem reports_unresolved {s : Store} (hs : s.Reachable) (answers : TagAnswers) (id : Int)
    (rules : List TagRule) (incoming : List Tag) (w : Workspace) :
    let wanted := normalizeTags rules incoming
    let pass := tags answers id rules incoming
    (Bindable answers wanted s → ∃ found added s' half,
      lookUp answers wanted (w.on s) = .ok found (w.on s) ∧
      upsert answers (missingTags found wanted) (w.on s) = .ok added (w.on s') ∧
      ((∃ a t v, pass (w.on s) = .error (.tagWithoutRow a t) v) ↔
        fits id = true ∧ ∃ t ∈ wanted, s.Unresolved id (found ++ added) t) ∧
      (∀ a t v, pass (w.on s) = .error (.tagWithoutRow a t) v →
        a = id ∧ FirstOf wanted (s.Unresolved id (found ++ added)) t ∧ v = w.on half) ∧
      (∀ t ∈ wanted, ∃ r ∈ half.tags, r.tag = t) ∧
      (∀ t, half.LinksTag id t ↔ s.LinksTag id t ∧ t ∈ wanted) ∧
      ((∀ r, answers.upserted r = true) →
        ∀ a t v, pass (w.on s) ≠ .error (.tagWithoutRow a t) v)) ∧
    (¬ Bindable answers wanted s →
      pass (w.on s) = .error (refused .tooManyParameters) (w.on s)) ∧
    ∀ (p q : Application) (e : Engine) (terms : Terms) (c : Call) (a : Int) (t : Tag),
      p.Serves e → c.perform terms p = .error (.tagWithoutRow a t) q →
      ∀ e', q.storeOf e' = p.storeOf e' := by
  intro wanted pass
  refine ⟨fun hbind => ?_, fun hmany => tags_tooMany hmany id w,
    fun p q e terms c a t hp hcall => Call.error_storeOf hp hcall⟩
  -- all parts about the pass follow from how it fails for want of a row
  have hfails : ∀ a t v, pass (w.on s) = .error (.tagWithoutRow a t) v ↔
      fits id = true ∧ a = id ∧ v = w.on (halfDone answers id wanted s) ∧
        FirstOf wanted (s.Unresolved id (knownTags answers wanted s)) t :=
    fun _ _ _ => tags_eq_unresolved id hs.sound hs.linksFit hbind
  refine ⟨foundTags answers wanted s, _, _, halfDone answers id wanted s, hbind.lookUp_on w,
    hbind.upsert_on w, ?_, ?_, fun t ht => halfDone_rows answers id s ht,
    halfDone_linksTag answers id wanted hs.sound, ?_⟩
  · rw [← exists_firstOf]
    constructor
    · rintro ⟨a, t, v, hfail⟩
      obtain ⟨hid, -, -, hfirst⟩ := (hfails a t v).mp hfail
      exact ⟨hid, t, hfirst⟩
    · rintro ⟨hid, t, hfirst⟩
      exact ⟨id, t, _, (hfails id t _).mpr ⟨hid, rfl, rfl, hfirst⟩⟩
  · intro a t v hfail
    obtain ⟨-, ha, hv, hfirst⟩ := (hfails a t v).mp hfail
    exact ⟨ha, hfirst, hv⟩
  · intro hall a t v hfail
    obtain ⟨-, -, -, hfirst⟩ := (hfails a t v).mp hfail
    obtain ⟨x, hx, hunresolved⟩ := exists_firstOf.mp ⟨t, hfirst⟩
    exact resolved_of_upserted hall hx hunresolved

/-- A look-up and an upsert that show nothing. -/
def TagAnswers.silent : TagAnswers where
  found _ := false
  upserted _ := false

end Reconcile

def Terms.silent : Terms where
  now := ⟨⟨2024, 1, 1⟩, ⟨0, 0, 0, 0⟩, none⟩
  settings := some { images := ⟨.slash, ["images"]⟩ }
  answers := .silent

/-- The archive is linked to a tag. -/
def Event.tagged : Event where
  terms := { Terms.silent with answers := {} }
  call := .syncTags 1 [⟨"", "old"⟩]

/-- Nothing is shown of two tags. The archive is linked to the first, so the second is named. -/
theorem Reconcile.second_unresolved :
    let p := Event.run [.register, .tagged] .blank
    let incoming : List Tag := [⟨"", "old"⟩, ⟨"", "new"⟩]
    ∃ half q,
      Reconcile.tags .silent 1 [] incoming (Workspace.on {} (p.storeOf (.memory 0))) =
        .error (.tagWithoutRow 1 ⟨"tag", "new"⟩) (Workspace.on {} half) ∧
      (∃ r ∈ half.tags, r.tag = ⟨"tag", "new"⟩) ∧
      (Call.syncTags 1 incoming).perform .silent p = .error (.tagWithoutRow 1 ⟨"tag", "new"⟩) q ∧
      q.storeOf (.memory 0) = p.storeOf (.memory 0) := by
  intro p incoming
  have hserves : p.Serves (.memory 0) :=
    (Event.run_serves_sound (p := .blank) ⟨rfl, rfl⟩ Store.Sound.empty [.register, .tagged]).1
  have hreachable : (p.storeOf (.memory 0)).Reachable :=
    ⟨.blank, .memory 0, [.register, .tagged], ⟨rfl, rfl⟩, rfl, rfl⟩
  obtain ⟨v, hpass⟩ := Work.eq_error_of_failure
    (x := Reconcile.tags .silent 1 [] incoming) (w := Workspace.on {} (p.storeOf (.memory 0)))
    (e := .tagWithoutRow 1 ⟨"tag", "new"⟩) (by decide +kernel)
  obtain ⟨q, hcall⟩ := Work.eq_error_of_failure
    (x := (Call.syncTags 1 incoming).perform .silent) (w := p)
    (e := .tagWithoutRow 1 ⟨"tag", "new"⟩) (by decide +kernel)
  have hbind : Bindable .silent (normalizeTags [] incoming) (p.storeOf (.memory 0)) :=
    ⟨by decide +kernel, by decide +kernel⟩
  obtain ⟨hpassed, -, hundone⟩ := reports_unresolved hreachable .silent 1 [] incoming {}
  obtain ⟨_, _, _, half, -, -, -, hfails, hrows, -⟩ := hpassed hbind
  obtain ⟨-, -, rfl⟩ := hfails 1 ⟨"tag", "new"⟩ v hpass
  exact ⟨half, q, hpass, hrows _ (by decide +kernel), hcall,
    hundone p q (.memory 0) .silent _ 1 _ hserves hcall _⟩

end GalleryCatalog
