import Mathlib.Data.List.Count
import Mathlib.Data.List.Flatten
import Mathlib.Data.List.Perm.Basic
import GalleryCatalog.Proofs.Admission
import GalleryCatalog.Proofs.Convergence
import GalleryCatalog.Proofs.OtherArchives

/-!
# Calls in another order

Archives share the numbers of rows and the rows of tags. But a reconciliation goes by the
content of its own archive, whatever numbers that has, and by how many of its tags have no row
yet, which one statement must take. So as long as none has too many, an archive fares as if
the calls on other archives were left out, and calls in another order, in which those on one
archive keep theirs, come to the same content.
-/

set_option autoImplicit false

namespace GalleryCatalog

open Reconcile

/-- An archive has the same content in two stores, whatever numbers its rows have. -/
structure Store.Alike (archive : Int) (s t : Store) : Prop where
  row : s.row? archive = t.row? archive
  sources : ∀ x, s.HoldsSource archive x ↔ t.HoldsSource archive x
  pages : ∀ page, s.page? archive page = t.page? archive page
  tags : ∀ x, s.LinksTag archive x ↔ t.LinksTag archive x

namespace Store

variable {archive : Int} {s t u : Store}

theorem Alike.refl (archive : Int) (s : Store) : s.Alike archive s :=
  ⟨rfl, fun _ => Iff.rfl, fun _ => rfl, fun _ => Iff.rfl⟩

theorem Alike.symm (h : s.Alike archive t) : t.Alike archive s :=
  ⟨h.row.symm, fun x => (h.sources x).symm, fun page => (h.pages page).symm,
    fun x => (h.tags x).symm⟩

theorem Alike.trans (h : s.Alike archive t) (h' : t.Alike archive u) : s.Alike archive u :=
  ⟨h.row.trans h'.row, fun x => (h.sources x).trans (h'.sources x),
    fun page => (h.pages page).trans (h'.pages page), fun x => (h.tags x).trans (h'.tags x)⟩

theorem page?_filter (s : Store) (archive page : Int) :
    s.page? archive page =
      ((s.images.filter (·.archive = archive)).find? (·.page = page)).map ImageRow.image := by
  rw [List.find?_filter]
  simp [page?, ImageRow.isPage]

/-- The pages of an archive are told apart. -/
theorem Sound.pagesOf_once (h : s.Sound) : ((s.imagesOf archive).map Image.page).Nodup := by
  have hrows : ((s.images.filter (·.archive = archive)).map ImageRow.page).Nodup := by
    have hkeys := h.pages_once.sublist (List.filter_sublist (p := (·.archive = archive)).map _)
    rw [List.nodup_map_iff_inj_on (h.image_ids.of_map.filter _)] at hkeys ⊢
    intro r hr r' hr' hpage
    have hsame : r.archive = r'.archive := by
      rw [of_decide_eq_true (List.mem_filter.mp hr).2, of_decide_eq_true (List.mem_filter.mp hr').2]
    exact hkeys r hr r' hr' (by rw [hsame, hpage])
  have hperm := (List.mergeSort_perm ((s.images.filter (·.archive = archive)).map ImageRow.image)
    fun a b => a.page ≤ b.page).map Image.page
  rw [List.map_map] at hperm
  exact hperm.nodup_iff.mpr hrows

theorem Leaves.linksTag (h : s.Leaves archive t) (hs : s.Sound) (ht : t.Sound) (x : Tag) :
    s.LinksTag archive x ↔ t.LinksTag archive x := by
  have hlink (l : LinkRow) (ha : l.archive = archive) : l ∈ s.links ↔ l ∈ t.links := by
    have hmem := congrArg (l ∈ ·) h.links
    simpa [ha] using hmem.symm
  constructor
  · rintro ⟨l, hl, ha, r, hr, hid, htag⟩
    exact ⟨l, (hlink l ha).mp hl, ha, r, h.tags.subset hr, hid, htag⟩
  · rintro ⟨l, hl, ha, r, hr, hid, htag⟩
    have hold := (hlink l ha).mpr hl
    -- the link had a row before, which no later row can have the number of
    obtain ⟨r', hr', hid'⟩ := List.mem_map.mp (hs.link_tags l hold)
    obtain rfl : r' = r :=
      List.inj_on_of_nodup_map ht.tag_ids (h.tags.subset hr') hr (hid'.trans hid.symm)
    exact ⟨l, hold, ha, r', hr', hid, htag⟩

theorem Leaves.alike (h : s.Leaves archive t) (hs : s.Sound) (ht : t.Sound) :
    s.Alike archive t where
  row := by rw [row?, row?, h.archives]
  sources x := by rw [holdsSource_iff, holdsSource_iff, sourcesOf, sourcesOf, h.sources]
  pages page := by rw [page?_filter, page?_filter, h.images]
  tags := h.linksTag hs ht

end Store

namespace Reconciliation

open Store (Alike)

variable {p : Reconciliation} {s t : Store}

/-! ## One call -/

theorem stalePages_perm {archive : Int} (h : s.Alike archive t) (hs : s.Sound) (ht : t.Sound)
    (is : List Image) : (stalePages (winners is) (s.imagesOf archive)).Perm
      (stalePages (winners is) (t.imagesOf archive)) := by
  refine (List.perm_ext_iff_of_nodup (hs.pagesOf_once.filter _) (ht.pagesOf_once.filter _)).mpr ?_
  intro page
  exact Store.mem_stalePages.trans (by rw [h.pages]; exact Store.mem_stalePages.symm)

/-- What a call fails with is seen from the content of its archive, and from whether its new tags
are refused. -/
theorem fails?_alike (full : Option StoreError) (h : s.Alike p.archive t) (hs : s.Sound)
    (ht : t.Sound) : p.fails? full s = p.fails? full t := by
  have himages : p.imagesRefusal? s = p.imagesRefusal? t := by
    unfold imagesRefusal?
    cases p.metadata.images with
    | none => rfl
    | some is =>
      have hperm := stalePages_perm h hs ht is
      simp only [Store.pageRefusal?, refusal?, hperm.length_eq, hperm.all_eq]
  rw [fails?, fails?, h.row, himages]

section Alike

variable (h : s.Alike p.archive t) (hs : s.Sound) (ht : t.Sound)
include h hs ht

theorem after_holdsSource (x : Source) :
    (p.after s).HoldsSource p.archive x ↔ (p.after t).HoldsSource p.archive x := by
  unfold after
  cases hm : p.metadata.sources with
  | none =>
    unfold Store.HoldsSource
    rw [reconciled_no_sources _ _ _ _ hm, reconciled_no_sources _ _ _ _ hm]
    exact h.sources x
  | some xs => rw [reconciled_holdsSource hs hm, reconciled_holdsSource ht hm, h.sources]

omit hs ht in
theorem after_page? (page : Int) :
    (p.after s).page? p.archive page = (p.after t).page? p.archive page := by
  have htagged (s : Store) :
      (tagged p.context.answers p.options p.archive p.metadata s).page? p.archive page =
        s.page? p.archive page := by
    rw [Store.page?, (tagged_rest ..).2.2]
    rfl
  unfold after
  cases hm : p.metadata.images with
  | none =>
    unfold Store.page?
    rw [reconciled_no_images _ _ _ _ hm, reconciled_no_images _ _ _ _ hm]
    exact h.pages page
  | some is => rw [reconciled_page? hm, reconciled_page? hm, htagged, htagged, h.pages]

theorem after_linksTag (hshows : p.ShowsUpserts) (hs' : (p.after s).Sound)
    (ht' : (p.after t).Sound) (x : Tag) :
    (p.after s).LinksTag p.archive x ↔ (p.after t).LinksTag p.archive x := by
  cases hm : p.metadata.tags with
  | none =>
    unfold after Store.LinksTag
    rw [(reconciled_no_tags _ _ _ _ hm).1, (reconciled_no_tags _ _ _ _ hm).2,
      (reconciled_no_tags _ _ _ _ hm).1, (reconciled_no_tags _ _ _ _ hm).2]
    exact h.tags x
  | some ts =>
    exact (reconciled_linksTag hs hs' hm (linkable hshows p.archive)).trans
      (reconciled_linksTag ht ht' hm (linkable hshows p.archive)).symm

end Alike

theorem after_row? (s : Store) (archive : Int) : (p.after s).row? archive = s.row? archive := by
  rw [Store.row?, after, (reconciled_rest ..).1]
  rfl

theorem leaves_alike (full : Option StoreError) (hshows : p.ShowsUpserts)
    (h : s.Alike p.archive t) (hs : s.Sound) (ht : t.Sound) :
    (p.leaves full s).Alike p.archive (p.leaves full t) := by
  have hs' : (p.leaves full s).Sound := leaves_sound full hs
  have ht' : (p.leaves full t).Sound := leaves_sound full ht
  unfold leaves at hs' ht' ⊢
  rw [← fails?_alike full h hs ht] at ht' ⊢
  split_ifs at hs' ht' ⊢
  · exact {
      row := by rw [after_row?, after_row?, h.row]
      sources := after_holdsSource h hs ht
      pages := after_page? h
      tags := after_linksTag h hs ht hshows hs' ht' }
  · exact h

theorem leaves_others (full : Option StoreError) {archive : Int} (hne : archive ≠ p.archive)
    (hs : s.Sound) : s.Alike archive (p.leaves full s) := by
  have hs' : (p.leaves full s).Sound := leaves_sound full hs
  unfold leaves at hs' ⊢
  split_ifs at hs' ⊢
  · exact (reconciled_leaves _ _ _ s hne).alike hs hs'
  · exact Alike.refl archive s

theorem leaves_tags (full : Option StoreError) (x : Tag) :
    (∃ r ∈ (p.leaves full s).tags, r.tag = x) ↔
      (∃ r ∈ s.tags, r.tag = x) ∨ p.fails? full s = none ∧ x ∈ p.wanted := by
  unfold leaves
  cases h : p.fails? full s with
  | some f => simp
  | none =>
    simp only [Option.isNone_none, if_true, true_and]
    rw [after_tags, Store.withTags_tagged]

/-! ## Calls one after another -/

/-- Calls one after another, each with what it has failed with, and what they leave. -/
def serve : List Reconciliation → Workspace → List (Reconciliation × Option Failure) × Workspace
  | [], w => ([], w)
  | p :: calls, w =>
    let (ended, u) := serve calls (Work.left p.job.run w)
    ((p, Work.failure? p.job.run w) :: ended, u)

/-- The tags that calls want, one call after another. -/
def allWanted (calls : List Reconciliation) : List Tag :=
  calls.flatMap wanted

/-- Calls, each with why its new tags are refused. -/
abbrev Told := List (Reconciliation × Option StoreError)

/-- How calls end when their new tags are refused as is told. -/
def ends : Told → Store → List (Reconciliation × Option Failure)
  | [], _ => []
  | (p, full) :: told, s => (p, p.fails? full s) :: ends told (p.leaves full s)

/-- The store that calls leave when their new tags are refused as is told. -/
def leftBy (told : Told) (s : Store) : Store :=
  told.foldl (fun s (p, full) => p.leaves full s) s

/-- A store on which calls can only fail for what they say about their archives. -/
structure Takes (s : Store) (calls : List Reconciliation) : Prop where
  sound : s.Sound
  shows : ∀ p ∈ calls, p.ShowsUpserts
  room : s.RoomForTags (allWanted calls).length

variable {calls calls' : List Reconciliation} {told : Told}

theorem allWanted_cons (p : Reconciliation) (calls : List Reconciliation) :
    (allWanted (p :: calls)).length = p.wanted.length + (allWanted calls).length := by
  rw [allWanted, List.flatMap_cons, List.length_append]
  rfl

theorem Takes.perm (h : Takes s calls) (hperm : calls.Perm calls') : Takes s calls' where
  sound := h.sound
  shows q hq := h.shows q (hperm.mem_iff.mpr hq)
  room := h.room.mono (hperm.flatMap_right wanted).length_eq.ge

theorem Takes.rest (full : Option StoreError) (h : Takes s (p :: calls)) :
    Takes (p.leaves full s) calls where
  sound := leaves_sound full h.sound
  shows q hq := h.shows q (List.mem_cons_of_mem p hq)
  room := leaves_room full (allWanted_cons p calls ▸ h.room)

/-- What is told comes to the same as what the store refuses. -/
def Faithful : Told → Store → Prop
  | [], _ => True
  | (p, full) :: told, s =>
    p.fails? full s = p.fails? (Store.tagRefusal? (p.newTags s)) s ∧
      Faithful told (p.leaves full s)

/-- What calls do is settled by the store that the first of them finds. -/
theorem serve_ends (htakes : Takes s (told.map Prod.fst)) (h : Faithful told s) (w : Workspace) :
    ∃ v, serve (told.map Prod.fst) (w.closedOn s) =
      (ends told s, Workspace.closedOn v (leftBy told s)) := by
  induction told generalizing s w with
  | nil => exact ⟨w, rfl⟩
  | cons call told ih =>
    obtain ⟨p, full⟩ := call
    obtain ⟨hfails, hrest⟩ := h
    obtain ⟨hfailure, v, hleft⟩ := run_outcome (htakes.shows p List.mem_cons_self)
      htakes.sound.tagsKeyed (htakes.room.mono (by simp [allWanted])) w
    rw [← leaves_congr hfails] at hleft
    obtain ⟨u, hserve⟩ := ih (htakes.rest full) hrest v
    refine ⟨u, ?_⟩
    rw [List.map_cons, serve, hfailure, ← hfails, hleft, hserve]
    rfl

/-- An archive fares as if the calls on other archives were left out. -/
theorem ends_own (archive : Int) (h : s.Alike archive t) (hs : s.Sound) (ht : t.Sound)
    (hshows : ∀ call ∈ told, call.1.ShowsUpserts) :
    (ends told s).filter (·.1.archive = archive) =
        ends (told.filter (·.1.archive = archive)) t ∧
      (leftBy told s).Alike archive (leftBy (told.filter (·.1.archive = archive)) t) := by
  -- the store of all calls and that of the own calls stay alike for this archive
  induction told generalizing s t with
  | nil => exact ⟨rfl, h⟩
  | cons call told ih =>
    obtain ⟨p, full⟩ := call
    have hrest : ∀ call ∈ told, call.1.ShowsUpserts := fun call hcall =>
      hshows call (List.mem_cons_of_mem _ hcall)
    have hsound : (p.leaves full s).Sound := leaves_sound full hs
    by_cases hown : p.archive = archive
    · subst hown
      rw [List.filter_cons_of_pos (by simp)]
      have hleft := leaves_alike full (hshows _ List.mem_cons_self) h hs ht
      obtain ⟨hends, hlast⟩ := ih hleft hsound (leaves_sound full ht) hrest
      refine ⟨?_, hlast⟩
      simpa [ends, fails?_alike full h hs ht] using hends
    · rw [List.filter_cons_of_neg (by simpa using hown)]
      have hleft := (leaves_others full (Ne.symm hown) hs).symm.trans h
      obtain ⟨hends, hlast⟩ := ih hleft hsound ht hrest
      refine ⟨?_, hlast⟩
      simpa [ends, hown] using hends

theorem leftBy_tags (told : Told) (s : Store) (x : Tag) :
    (∃ r ∈ (leftBy told s).tags, r.tag = x) ↔
      (∃ r ∈ s.tags, r.tag = x) ∨ ∃ p, (p, none) ∈ ends told s ∧ x ∈ p.wanted := by
  induction told generalizing s with
  | nil => simp [leftBy, ends]
  | cons call told ih =>
    obtain ⟨p, full⟩ := call
    have hrest := ih (p.leaves full s)
    rw [leaves_tags] at hrest
    refine hrest.trans ?_
    simp only [ends, List.mem_cons, Prod.mk.injEq, or_and_right, exists_or, ← or_assoc]
    apply or_congr_left
    apply or_congr_right
    constructor
    · rintro ⟨hreturns, hx⟩
      exact ⟨p, ⟨rfl, hreturns.symm⟩, hx⟩
    · rintro ⟨_, ⟨rfl, hreturns⟩, hx⟩
      exact ⟨hreturns.symm, hx⟩

/-! ## New tags -/

/-- Later a look-up shows no less, since rows of tags only come. -/
theorem newTags_length_leaves (p q : Reconciliation) (full : Option StoreError) (s : Store) :
    (p.newTags (q.leaves full s)).length ≤ (p.newTags s).length := by
  have htags : s.tags ⊆ (q.leaves full s).tags := by
    unfold leaves
    split_ifs
    · rw [after_tags]
      exact Store.withTags_subset q.wanted s
    · exact fun _ h => h
  have hfound : foundTags p.context.answers p.wanted s ⊆
      foundTags p.context.answers p.wanted (q.leaves full s) := by
    intro r hr
    obtain ⟨hrow, hshown⟩ := List.mem_filter.mp hr
    obtain ⟨hrow, hwanted⟩ := Store.mem_tagRowsOf.mp hrow
    exact List.mem_filter.mpr ⟨Store.mem_tagRowsOf.mpr ⟨htags hrow, hwanted⟩, hshown⟩
  unfold newTags missingTags
  rw [← List.countP_eq_length_filter, ← List.countP_eq_length_filter]
  apply List.countP_mono_left
  intro t _ hmissing
  by_contra hhas
  have hlater := Store.hasTag_of_subset hfound (by simpa using hhas)
  simp [hlater] at hmissing

/-- What is told of calls of which none has too many new tags. -/
def Told.ofFew (calls : List Reconciliation) : Told :=
  calls.map (·, none)

theorem faithful_of_few (h : ∀ p ∈ calls, 2 * (p.newTags s).length ≤ parameterLimit) :
    (Told.ofFew calls).map Prod.fst = calls ∧ Faithful (Told.ofFew calls) s := by
  induction calls generalizing s with
  | nil => exact ⟨rfl, trivial⟩
  | cons p calls ih =>
    have hrest : ∀ q ∈ calls, 2 * (q.newTags (p.leaves none s)).length ≤ parameterLimit := by
      intro q hq
      have hold := h q (List.mem_cons_of_mem p hq)
      have hnew := newTags_length_leaves q p none s
      omega
    obtain ⟨hcalls, hfaithful⟩ := ih hrest
    exact ⟨congrArg (p :: ·) hcalls,
      by rw [Store.tagRefusal?_eq_none.mpr (h p List.mem_cons_self)], hfaithful⟩

/-- Calls, each with whether it was refused for its number of values. -/
def crowded (ended : List (Reconciliation × Option Failure)) : List (Reconciliation × Bool) :=
  ended.map fun (p, f) => (p, f = some (refused .tooManyParameters))

/-- What is told of calls that were refused for their number of values. -/
def Told.ofCrowded (calls : List (Reconciliation × Bool)) : Told :=
  calls.map fun (p, many) => (p, if many then some .tooManyParameters else none)

/-- To tell whether a call was refused for a number of values is to tell enough. -/
theorem fails?_crowded (p : Reconciliation) (tags : List Tag) (s : Store) :
    p.fails? (if decide (p.fails? (Store.tagRefusal? tags) s =
        some (refused .tooManyParameters)) then some .tooManyParameters else none) s =
      p.fails? (Store.tagRefusal? tags) s := by
  by_cases hid : fits p.archive = true
  · cases hrow : s.row? p.archive with
    | none => simp [fails?, hid, hrow]
    | some row =>
      simp only [fails?_row hid hrow]
      cases hlookUp : Store.lookUpRefusal? p.wanted with
      | some e => simp
      | none =>
        cases hnew : Store.tagRefusal? tags with
        | some e => simp [refusal?_nil hnew]
        | none =>
          split_ifs with hmany
          · simpa using (of_decide_eq_true hmany).symm
          · rfl
  · simp [fails?, hid]

theorem faithful_of_crowded (h : Takes s calls) (w : Workspace) :
    let told := Told.ofCrowded (crowded (serve calls (w.closedOn s)).1)
    told.map Prod.fst = calls ∧ Faithful told s := by
  induction calls generalizing s w with
  | nil => exact ⟨rfl, trivial⟩
  | cons p calls ih =>
    obtain ⟨hfailure, v, hleft⟩ := run_outcome (h.shows p List.mem_cons_self) h.sound.tagsKeyed
      (h.room.mono (by simp [allWanted])) w
    obtain ⟨hcalls, hfaithful⟩ := ih (h.rest (Store.tagRefusal? (p.newTags s))) v
    have hsame := fails?_crowded p (p.newTags s) s
    intro told
    simp only [told, serve, hleft, hfailure, crowded, Told.ofCrowded, List.map_cons, Faithful]
    refine ⟨congrArg (p :: ·) hcalls, hsame, ?_⟩
    rw [leaves_congr hsame]
    exact hfaithful

/-! ## Another order -/

/-- Calls in another order, in which those on one archive keep theirs. -/
def Reordered (calls calls' : List Reconciliation) : Prop :=
  ∀ archive : Int, calls.filter (·.archive = archive) = calls'.filter (·.archive = archive)

theorem Reordered.perm (h : Reordered calls calls') : calls.Perm calls' := by
  classical
  have hcount (calls : List Reconciliation) (p : Reconciliation) :
      calls.count p = (calls.filter (·.archive = p.archive)).count p :=
    (List.count_filter (by simp)).symm
  rw [List.perm_iff_count]
  intro p
  -- calls that are equal are on one archive
  rw [hcount calls, hcount calls', h]

/-- What is told of calls in another order makes no difference, if it is the same for the calls on
one archive. -/
theorem serve_alike {told told' : Told} (htakes : Takes s calls) (htakes' : Takes s calls')
    (h : told.map Prod.fst = calls ∧ Faithful told s)
    (h' : told'.map Prod.fst = calls' ∧ Faithful told' s)
    (hsame : ∀ archive : Int, told.filter (·.1.archive = archive) =
      told'.filter (·.1.archive = archive)) (w v : Workspace) :
    let one := serve calls (w.closedOn s)
    let other := serve calls' (v.closedOn s)
    (∀ archive, one.1.filter (·.1.archive = archive) = other.1.filter (·.1.archive = archive)) ∧
      (∀ archive, one.2.unit.committed.Alike archive other.2.unit.committed) ∧
      ∀ x, (∃ r ∈ one.2.unit.committed.tags, r.tag = x) ↔
        ∃ r ∈ other.2.unit.committed.tags, r.tag = x := by
  obtain ⟨rfl, hfaithful⟩ := h
  obtain ⟨rfl, hfaithful'⟩ := h'
  obtain ⟨u, hone⟩ := serve_ends htakes hfaithful w
  obtain ⟨u', hother⟩ := serve_ends htakes' hfaithful' v
  have hshows : ∀ call ∈ told, call.1.ShowsUpserts := fun call hcall =>
    htakes.shows _ (List.mem_map_of_mem hcall)
  have hshows' : ∀ call ∈ told', call.1.ShowsUpserts := fun call hcall =>
    htakes'.shows _ (List.mem_map_of_mem hcall)
  have hown (archive : Int) :=
    ends_own archive (Alike.refl archive s) htakes.sound htakes.sound hshows
  have hown' (archive : Int) :=
    ends_own archive (Alike.refl archive s) htakes.sound htakes.sound hshows'
  have hends (archive : Int) : (ends told s).filter (·.1.archive = archive) =
      (ends told' s).filter (·.1.archive = archive) := by
    rw [(hown archive).1, (hown' archive).1, hsame archive]
  -- a call that returns in one order does so in the other, where its archive shows it
  have hreturned (p : Reconciliation) : (p, none) ∈ ends told s ↔ (p, none) ∈ ends told' s := by
    have hmem := congrArg ((p, none) ∈ ·) (hends p.archive)
    simpa using hmem
  intro one other
  simp only [one, other, hone, hother]
  refine ⟨hends, fun archive => ?_, fun x => ?_⟩
  · have halike := (hown' archive).2
    rw [← hsame archive] at halike
    exact (hown archive).2.trans halike.symm
  · change (∃ r ∈ (leftBy told s).tags, r.tag = x) ↔ ∃ r ∈ (leftBy told' s).tags, r.tag = x
    simp only [leftBy_tags, hreturned]

/-- Calls on two archives may change places. -/
theorem Reordered.swap {p q : Reconciliation} (h : p.archive ≠ q.archive) :
    Reordered [p, q] [q, p] := by
  intro archive
  by_cases hp : p.archive = archive
  · have hq : ¬ q.archive = archive := fun hq => h (hp.trans hq.symm)
    simp [hp, hq]
  · simp [List.filter_cons, hp]

/-- As long as there are numbers for the tags that are wanted, calls in another order make no
difference to how any of them ends, to the content of any archive, and to the tags that have a
row. This asks that no call wants more tags without a row than one statement takes, or that the
calls that are refused for a number of values are the same in both orders. -/
theorem serve_reordered {s : Store} {calls calls' : List Reconciliation} (hs : s.Reachable)
    (hshows : ∀ p ∈ calls, p.ShowsUpserts)
    (hroom : s.tags.length + (allWanted calls).length < 0x8000000000000000)
    (horder : Reordered calls calls') (w v : Workspace)
    (hfew : (∀ p ∈ calls, 2 * (p.newTags s).length ≤ parameterLimit) ∨ ∀ archive : Int,
      (crowded (serve calls (w.closedOn s)).1).filter (·.1.archive = archive) =
        (crowded (serve calls' (v.closedOn s)).1).filter (·.1.archive = archive)) :
    let one := serve calls (w.closedOn s)
    let other := serve calls' (v.closedOn s)
    (∀ archive, one.1.filter (·.1.archive = archive) = other.1.filter (·.1.archive = archive)) ∧
      (∀ archive, one.2.unit.committed.Alike archive other.2.unit.committed) ∧
      ∀ x, (∃ r ∈ one.2.unit.committed.tags, r.tag = x) ↔
        ∃ r ∈ other.2.unit.committed.tags, r.tag = x := by
  have htakes : Takes s calls := ⟨hs.sound, hshows, hs.room hroom⟩
  have htakes' : Takes s calls' := htakes.perm horder.perm
  rcases hfew with hfew | hsame
  · have hfew' : ∀ p ∈ calls', 2 * (p.newTags s).length ≤ parameterLimit := fun p hp =>
      hfew p (horder.perm.mem_iff.mpr hp)
    refine serve_alike htakes htakes' (faithful_of_few hfew) (faithful_of_few hfew') ?_ w v
    intro archive
    simp only [Told.ofFew, List.filter_map, Function.comp_def, horder archive]
  · refine serve_alike htakes htakes' (faithful_of_crowded htakes w)
      (faithful_of_crowded htakes' v) ?_ w v
    intro archive
    simp only [Told.ofCrowded, List.filter_map, Function.comp_def, hsame archive]

/-- The sample metadata for an archive. -/
def sample (archive : Int) : Reconciliation where
  context := .sample
  archive := archive
  metadata := .sample

/-- A call that has given a tag its row when an integer stops it. -/
def tooWide (archive : Int) : Reconciliation where
  context := .sample
  archive := archive
  metadata := { images := some [⟨"2.jpg", 2, some 0x8000000000000000, none⟩],
                tags := some [⟨"", "red"⟩] }

end Reconciliation

def Store.withBoth : Store where
  archives := [⟨1, "a1", "First", ⟨⟨2024, 1, 1⟩, ⟨0, 0, 0, 0⟩, none⟩⟩,
    ⟨2, "b2", "Second", ⟨⟨2024, 1, 1⟩, ⟨0, 0, 0, 0⟩, none⟩⟩]

theorem Store.withBoth_reachable : Store.withBoth.Reachable :=
  ⟨Application.blank, .memory 0, [Event.register, Event.registerSecond], ⟨rfl, rfl⟩, rfl,
    by decide +kernel⟩

namespace Reconciliation

/-- The calls on the first archive, one of which fails, come before or after the one on the
second. -/
theorem sample_reordered :
    let s := Store.withBoth
    let one := serve [.sample 1, .tooWide 1, .sample 2] (Workspace.closedOn {} s)
    let other := serve [.sample 2, .sample 1, .tooWide 1] (Workspace.closedOn {} s)
    s.Reachable ∧ one.1.map Prod.snd = [none, some outOfRange, none] ∧
      one.1.filter (·.1.archive = 1) = other.1.filter (·.1.archive = 1) ∧
      one.2.unit.committed.Alike 1 other.2.unit.committed ∧
      ∃ r ∈ other.2.unit.committed.tags, r.tag = ⟨"tag", "blue"⟩ := by
  have horder :
      Reordered [.sample 1, .tooWide 1, .sample 2] [.sample 2, .sample 1, .tooWide 1] := by
    intro archive
    by_cases h1 : 1 = archive
    · subst h1
      rfl
    · by_cases h2 : 2 = archive
      · subst h2
        rfl
      · simp [sample, tooWide, h1, h2]
  have hshows : ∀ p ∈ [sample 1, tooWide 1, sample 2], p.ShowsUpserts := by
    intro p hp
    simp only [List.mem_cons, List.not_mem_nil, or_false] at hp
    rcases hp with rfl | rfl | rfl <;> exact fun _ => rfl
  obtain ⟨hreturned, halike, htags⟩ := serve_reordered Store.withBoth_reachable hshows
    (by decide +kernel) horder {} {} (.inl (by decide +kernel))
  refine ⟨Store.withBoth_reachable, by decide +kernel, hreturned 1, halike 1, (htags _).mp ?_⟩
  decide +kernel

/-- Link an archive to so many tags. -/
def tagging (archive : Int) (count : Nat) : Reconciliation where
  context := .sample
  archive := archive
  metadata := { tags := some (Tag.longs count) }

section Tagging

variable (archive : Int) (count : Nat)

theorem tagging_wanted : (tagging archive count).wanted.Perm (Tag.longs count) :=
  normalizeTags_perm (Tag.longs_nodup count) (Tag.longs_space_ne count)

theorem tagging_wanted_length : (tagging archive count).wanted.length = count :=
  (tagging_wanted archive count).length_eq.trans (Tag.longs_length count)

theorem tagging_newTags (s : Store) :
    ((tagging archive count).newTags s).length =
      (Tag.longs count).countP fun t => ¬ ∃ r ∈ s.tags, r.tag = t := by
  rw [← (tagging_wanted archive count).countP_eq]
  refine (missingTags_length (fun _ => true) (tagging archive count).wanted s).trans ?_
  simp

variable {s : Store}

theorem tagging_newTags_of_empty (h : s.tags = []) :
    ((tagging archive count).newTags s).length = count := by
  rw [tagging_newTags, List.countP_eq_length.mpr (by simp [h]), Tag.longs_length]

theorem tagging_newTags_lt {x : Tag} (hx : x ∈ Tag.longs count)
    (hrow : ∃ r ∈ s.tags, r.tag = x) : ((tagging archive count).newTags s).length < count := by
  have hless := (List.countP_lt_length_iff (p := fun t => ¬ ∃ r ∈ s.tags, r.tag = t)).mpr
    ⟨x, hx, by simpa using hrow⟩
  rwa [Tag.longs_length, ← tagging_newTags archive count s] at hless

variable {archive count}

/-- Its new tags alone can stop the call, when it is not too many tags that are looked up. -/
theorem tagging_fails? {row : ArchiveRow} (hid : fits archive = true)
    (hrow : s.row? archive = some row) (hlookUp : count + 1 ≤ parameterLimit)
    (full : Option StoreError) : (tagging archive count).fails? full s = full.map refused := by
  have hcount : (Store.composites (tagging archive count).wanted).size ≤ count :=
    (Store.composites_size_le _).trans_eq (tagging_wanted_length archive count)
  have hfound : Store.lookUpRefusal? (tagging archive count).wanted = none :=
    Store.lookUpRefusal?_eq_none.mpr (by omega)
  have himages : (tagging archive count).imagesRefusal? s = none := rfl
  rw [fails?_row (p := tagging archive count) hid hrow, hfound, himages, Option.none_or,
    Option.or_none]

end Tagging

theorem serve_pair {p q : Reconciliation} {s : Store} (h : Takes s [p, q]) (w : Workspace) :
    let full := Store.tagRefusal? (p.newTags s)
    (serve [p, q] (w.closedOn s)).1.map Prod.snd =
      [p.fails? full s,
        q.fails? (Store.tagRefusal? (q.newTags (p.leaves full s))) (p.leaves full s)] := by
  intro full
  have hrest := h.rest full
  obtain ⟨hfirst, v, hleft⟩ := run_outcome (h.shows p List.mem_cons_self) h.sound.tagsKeyed
    (h.room.mono (by simp [allWanted])) w
  obtain ⟨hsecond, -⟩ := run_outcome (hrest.shows q List.mem_cons_self) hrest.sound.tagsKeyed
    (hrest.room.mono (by simp [allWanted])) v
  simp only [serve, hleft, hfirst, List.map_cons, List.map_nil]
  exact congrArg (fun f => [p.fails? full s, f]) hsecond

/-- Calls on two archives that share a tag. When the second one comes first, one statement does not
take its new tags, and when it comes last, the first one has given one of them a row. -/
theorem order_decides_full_call :
    let s := Store.withBoth
    let few := tagging 1 1
    let many := tagging 2 16384
    s.Reachable ∧ Reordered [few, many] [many, few] ∧
      (serve [few, many] (Workspace.closedOn {} s)).1.map Prod.snd = [none, none] ∧
      (serve [many, few] (Workspace.closedOn {} s)).1.map Prod.snd =
        [some (refused .tooManyParameters), none] := by
  intro s few many
  have hreachable : s.Reachable := Store.withBoth_reachable
  -- the rows of the archives stay where they are
  have hfew (full : Option StoreError) {t : Store} (ht : t.archives = s.archives) :
      few.fails? full t = full.map refused :=
    tagging_fails? (by decide) (by rw [Store.row?, ht]; rfl) (by decide) full
  have hmany (full : Option StoreError) {t : Store} (ht : t.archives = s.archives) :
      many.fails? full t = full.map refused :=
    tagging_fails? (by decide) (by rw [Store.row?, ht]; rfl) (by decide) full
  have hfewNew : Store.tagRefusal? (few.newTags s) = none :=
    Store.tagRefusal?_eq_none.mpr (by rw [tagging_newTags_of_empty 1 1 rfl]; decide)
  have hmanyNew : Store.tagRefusal? (many.newTags s) = some .tooManyParameters := by
    rw [Store.tagRefusal?, tagging_newTags_of_empty 2 16384 rfl]
    decide
  have hmanyLater : Store.tagRefusal? (many.newTags (few.leaves none s)) = none := by
    have hrow : ∃ r ∈ (few.leaves none s).tags, r.tag = Tag.long 0 := by
      rw [leaves_tags]
      exact .inr ⟨hfew none rfl, (tagging_wanted 1 1).mem_iff.mpr (Tag.long_mem (by decide))⟩
    have hless : (many.newTags (few.leaves none s)).length < 16384 :=
      tagging_newTags_lt 2 16384 (Tag.long_mem (by decide)) hrow
    exact Store.tagRefusal?_eq_none.mpr (by rw [parameterLimit]; omega)
  have htakes : Takes s [few, many] := by
    refine ⟨hreachable.sound, fun p hp => ?_, hreachable.room ?_⟩
    · rcases List.mem_pair.mp hp with rfl | rfl <;> exact fun _ => rfl
    · have hlength : (allWanted [few, many]).length = 1 + (16384 + 0) := by
        rw [allWanted_cons, allWanted_cons, tagging_wanted_length, tagging_wanted_length]
        rfl
      rw [hlength]
      decide
  have hstays : (few.leaves none s).archives = s.archives := by
    rw [leaves, hfew none rfl]
    exact (reconciled_rest few.context.answers few.options few.archive few.metadata s).1
  have hsame : many.leaves (some .tooManyParameters) s = s := by
    rw [leaves, hmany _ rfl]
    rfl
  refine ⟨hreachable, .swap (by decide), ?_, ?_⟩
  · rw [serve_pair htakes, hfewNew, hmanyLater, hfew none rfl, hmany none hstays]
    rfl
  · rw [serve_pair (htakes.perm (.swap _ _ _)), hmanyNew, hsame, hfewNew, hfew none rfl,
      hmany _ rfl]
    rfl

end Reconciliation

end GalleryCatalog
