import GalleryCatalog.Proofs.AbortedUnit
import GalleryCatalog.Proofs.StaleLookup

/-!
# Writes that fail

A call of a repository that fails leaves the view of its unit of work as it was, so nothing
of it can be committed. The exception is a batch of links, which is added link by link: the
links before the failing one stay in the view, and a commit stores them. What makes the batch
safe is the unit of work around it, which gives up everything when it is left.
-/

set_option autoImplicit false

namespace GalleryCatalog

/-! ## Statements that fail -/

/-- A statement that changes nothing when it fails. -/
def Statement.AllOrNothing {α : Type} (x : Statement α) : Prop :=
  ∀ s e s', x s = .error e s' → s' = s

namespace Statement

variable {α β : Type}

theorem allOrNothing_of_returns {x : Statement α} (h : ∀ s, Work.returns x s = true) :
    x.AllOrNothing := by
  intro s e s' hfails
  obtain ⟨a, t, hruns⟩ := Work.eq_ok_of_returns (h s)
  simp [hruns] at hfails

theorem throw_allOrNothing (e : StoreError) : (throw e : Statement α).AllOrNothing := by
  intro s d s' hfails
  exact (EStateM.Result.error.inj hfails).2.symm

/-- What the values of a statement must fulfil is looked at before anything is changed. -/
theorem guard_allOrNothing (asked : Prop) [Decidable asked] (refusal : StoreError)
    {f : Unit → Statement α} (h : (f ()).AllOrNothing) :
    ((if asked then pure () else throw refusal : Statement Unit) >>= f).AllOrNothing := by
  split_ifs
  · exact h
  · exact throw_allOrNothing refusal

theorem requires_allOrNothing (ns : List Int) {f : Unit → Statement α}
    (h : (f ()).AllOrNothing) : (requireFits ns >>= f).AllOrNothing :=
  guard_allOrNothing _ _ h

theorem counts_allOrNothing (values : Nat) {f : Unit → Statement α}
    (h : (f ()).AllOrNothing) : (requireParameters values >>= f).AllOrNothing :=
  guard_allOrNothing _ _ h

end Statement

namespace Store

open Statement

theorem addSource_allOrNothing (archive : Int) (source : Source) :
    (addSource archive source).AllOrNothing := by
  unfold addSource
  refine requires_allOrNothing _ ?_
  cases source.name with
  | none => exact throw_allOrNothing _
  | some name => exact allOrNothing_of_returns fun s => rfl

theorem addLink_allOrNothing (archive tag : Int) : (addLink archive tag).AllOrNothing := by
  refine requires_allOrNothing _ fun s e s' hfails => ?_
  rw [Work.get_bind_apply] at hfails
  split_ifs at hfails
  · exact throw_allOrNothing _ s e s' hfails
  · simp at hfails

/-! ## Batches of links -/

/-- Whether an archive can be linked to some tags, given by number, in one batch. -/
structure CanLink (s : Store) (archive : Int) (tags : List Int) : Prop where
  inRange : ∀ n ∈ tags, fits archive = true ∧ fits n = true
  fresh : ∀ n ∈ tags, (⟨archive, n⟩ : LinkRow) ∉ s.links
  once : tags.Nodup

theorem canLink_one {s : Store} {archive n : Int} :
    s.CanLink archive [n] ↔
      (fits archive = true ∧ fits n = true) ∧ (⟨archive, n⟩ : LinkRow) ∉ s.links :=
  ⟨fun h => ⟨h.inRange n (by simp), h.fresh n (by simp)⟩,
    fun h => ⟨by simpa using h.1, by simpa using h.2, List.nodup_singleton n⟩⟩

/-- The first link of a batch is there when the next ones are added. -/
theorem canLink_cons {s : Store} {archive n : Int} {tags : List Int} :
    s.CanLink archive (n :: tags) ↔
      s.CanLink archive [n] ∧ (s.withLink archive n).CanLink archive tags := by
  have hlinks : ∀ k, (⟨archive, k⟩ : LinkRow) ∉ (s.withLink archive n).links ↔
      (⟨archive, k⟩ : LinkRow) ∉ s.links ∧ k ≠ n := by
    intro k
    simp [withLink]
  rw [canLink_one]
  constructor
  · rintro ⟨hrange, hfresh, honce⟩
    obtain ⟨hfirst, hrest⟩ := List.nodup_cons.mp honce
    refine ⟨⟨hrange n (by simp), hfresh n (by simp)⟩, fun k hk => hrange k (by simp [hk]), ?_, hrest⟩
    intro k hk
    exact (hlinks k).mpr ⟨hfresh k (by simp [hk]), fun hsame => hfirst (hsame ▸ hk)⟩
  · rintro ⟨⟨hn, hfree⟩, hrange, hfresh, honce⟩
    refine ⟨?_, ?_, ?_⟩
    · exact List.forall_mem_cons.mpr ⟨hn, hrange⟩
    · exact List.forall_mem_cons.mpr ⟨hfree, fun k hk => ((hlinks k).mp (hfresh k hk)).1⟩
    · exact List.nodup_cons.mpr ⟨fun hmem => ((hlinks n).mp (hfresh n hmem)).2 rfl, honce⟩

theorem addLink_canLink {archive n : Int} {s s' : Store} (h : addLink archive n s = .ok () s') :
    s.CanLink archive [n] := by
  refine canLink_one.mpr ⟨?_, (addLink_eq_ok h).2⟩
  by_contra hfits
  have hnot : ¬ [archive, n].all fits = true := by simpa using hfits
  have hfails : addLink archive n s = .error .integerOutOfRange s := Work.requires_error hnot _ s
  simp [hfails] at h

theorem addLink_eq_error {archive n : Int} {s s' : Store} {e : StoreError}
    (h : addLink archive n s = .error e s') : s' = s ∧ ¬ s.CanLink archive [n] := by
  refine ⟨addLink_allOrNothing archive n s e s' h, fun hcan => ?_⟩
  obtain ⟨⟨harchive, hn⟩, hfree⟩ := canLink_one.mp hcan
  simp [addLink_ok harchive hn hfree] at h

theorem canLink_nil (s : Store) (archive : Int) : s.CanLink archive [] :=
  ⟨by simp, by simp, List.nodup_nil⟩

/-- A batch that returns has met no link that cannot be added. -/
theorem addLinks_canLink {archive : Int} {tags : List Int} {s s' : Store}
    (h : addLinks archive tags s = .ok () s') : s.CanLink archive tags := by
  induction tags generalizing s with
  | nil => exact canLink_nil s archive
  | cons n tags ih =>
    obtain ⟨_, s₁, hfirst, hrest⟩ := Work.bind_eq_ok.mp h
    have hcan := addLink_canLink hfirst
    obtain ⟨rfl, -⟩ := addLink_eq_ok hfirst
    exact canLink_cons.mpr ⟨hcan, ih hrest⟩

/-- What is left of a batch that fails at some link: the links before it. -/
def KeepsLinks (s : Store) (archive : Int) (tags : List Int) (s' : Store) : Prop :=
  ∃ kept n rest, tags = kept ++ n :: rest ∧ s.CanLink archive kept ∧
    ¬ s.CanLink archive (kept ++ [n]) ∧
    s' = { s with links := s.links ++ kept.map (LinkRow.mk archive) }

theorem addLinks_eq_error {archive : Int} {tags : List Int} {s s' : Store} {e : StoreError}
    (h : addLinks archive tags s = .error e s') : s.KeepsLinks archive tags s' := by
  induction tags generalizing s with
  | nil => cases h
  | cons n tags ih =>
    rcases Work.bind_eq_error.mp h with hfirst | ⟨_, s₁, hfirst, hrest⟩
    · obtain ⟨rfl, hcannot⟩ := addLink_eq_error hfirst
      exact ⟨[], n, tags, rfl, canLink_nil s' archive, hcannot, by simp⟩
    · have hcan := addLink_canLink hfirst
      obtain ⟨rfl, -⟩ := addLink_eq_ok hfirst
      obtain ⟨kept, k, rest, rfl, hkept, hcannot, rfl⟩ := ih hrest
      refine ⟨n :: kept, k, rest, rfl, canLink_cons.mpr ⟨hcan, hkept⟩, ?_, ?_⟩
      · intro hall
        exact hcannot (canLink_cons.mp hall).2
      · simp [withLink]

end Store

/-! ## Calls that fail -/

namespace RepositoryCall

/-- The store after a call that fails and leaves its unit of work live. -/
def AfterFailure (s : Store) : RepositoryCall → Store → Prop
  | .addLinks id tags, s' => s.KeepsLinks id tags s'
  | _, s' => s' = s

open Statement in
theorem statement_afterFailure {c : RepositoryCall} (harchive : ∀ a, c ≠ .addArchive a)
    {s s' : Store} {e : StoreError} (h : c.statement s = .error e s') : c.AfterFailure s s' := by
  cases c with
  | addArchive a => exact absurd rfl (harchive a)
  | addLinks id tags => exact Store.addLinks_eq_error h
  | addSource id source => exact Store.addSource_allOrNothing id source s e s' h
  | archiveByHash _ => exact allOrNothing_of_returns (fun s => rfl) s e s' h
  | findTags _ | upsertTags _ =>
    exact counts_allOrNothing _ (allOrNothing_of_returns fun s => rfl) s e s' h
  | upsertImages _ _ | deletePages _ _ =>
    exact counts_allOrNothing _ (requires_allOrNothing _ (allOrNothing_of_returns fun s => rfl)) s
      e s' h
  | _ => exact requires_allOrNothing _ (allOrNothing_of_returns fun s => rfl) s e s' h

/-- A call that fails was made on an undone view, which it leaves, or its statement failed. -/
theorem access_eq_error {c : RepositoryCall} (harchive : ∀ a, c ≠ .addArchive a)
    {view v : View} {e : StoreError} (h : c.access view = .error e v) :
    (view = .undone ∧ v = .undone) ∨
      ∃ s s', view = .live s ∧ v = .live s' ∧ c.AfterFailure s s' := by
  have hreaches : c.Reaches := by
    by_contra hidle
    obtain ⟨a, hreturns⟩ := access_idle hidle view
    simp [hreturns] at h
  cases view with
  | undone =>
    rw [access_undone hreaches, EStateM.Result.error.injEq] at h
    exact .inl ⟨rfl, h.2.symm⟩
  | live s =>
    rw [access_reaches hreaches, onView_other harchive] at h
    cases hrun : c.statement s with
    | ok a s' => simp [Statement.onView, hrun] at h
    | error d s' =>
      simp only [Statement.onView, hrun, EStateM.Result.error.injEq] at h
      exact .inr ⟨s, s', rfl, h.2.symm, statement_afterFailure harchive hrun⟩

end RepositoryCall

namespace UnitOfWork

/-- Let a call of a repository fail in an open unit of work, whatever its rows and the
arguments of the call, unless it is to add an archive. Then what the unit of work sees is as
before, so a commit stores nothing of the call. Only of a batch of links do the ones before
the first that cannot be added stay, and only they are committed. -/
theorem failed_call_leaves {c : RepositoryCall} (harchive : ∀ a, c ≠ .addArchive a)
    {saved : Store} {view : View} {e : UnitError} {u : UnitOfWork}
    (h : use c.access (.opened saved view) = .error e u) :
    (view = .undone ∧ u = .opened saved view ∧ commit u = .error (.store .undone) u) ∨
      ∃ s s', view = .live s ∧ c.AfterFailure s s' ∧ u = .opened saved (.live s') ∧
        commit u = .ok () (.opened s' (.live s')) := by
  cases hrun : c.access view with
  | ok a v => simp [use, opened, hrun] at h
  | error d v =>
    simp only [use, opened, hrun, EStateM.Result.error.injEq] at h
    obtain ⟨-, rfl⟩ := h
    rcases RepositoryCall.access_eq_error harchive hrun with ⟨rfl, rfl⟩ | ⟨s, s', rfl, rfl, hafter⟩
    · exact .inl ⟨rfl, rfl, rfl⟩
    · exact .inr ⟨s, s', rfl, hafter, rfl, rfl⟩

/-- The second image has a width that no column holds, so the first one is not there either. -/
theorem failed_images_leave_nothing :
    let u : UnitOfWork := .opened {} (.live {})
    let wide : RepositoryCall :=
      .upsertImages 1 [⟨"1.png", 1, none, none⟩, ⟨"2.png", 2, some 0x8000000000000000, none⟩]
    use wide.access u = .error (.store .integerOutOfRange) u ∧ commit u = .ok () u := by
  intro u wide
  have hfails : use wide.access u = .error (.store .integerOutOfRange) u := rfl
  rcases failed_call_leaves (by simp [wide]) hfails with ⟨hview, -⟩ | ⟨s, s', hview, hafter, -, hcommit⟩
  · cases hview
  · obtain rfl := View.live.inj hview
    obtain rfl : s' = {} := hafter
    exact ⟨hfails, hcommit⟩

/-- Of three tags an archive has the third. Linking it to the second and the third fails at the
third, and a commit after that stores the link to the second. -/
theorem failed_links_stay :
    let rows : Store :=
      { archives := [⟨1, "a1", "First", ⟨⟨2024, 1, 1⟩, ⟨0, 0, 0, 0⟩, none⟩⟩]
        tags := [⟨1, "", "one"⟩, ⟨2, "", "two"⟩, ⟨3, "", "three"⟩]
        links := [⟨1, 3⟩] }
    let kept : Store := { rows with links := [⟨1, 3⟩, ⟨1, 2⟩] }
    let before : List Step := [.enter,
      .call (.addArchive ⟨none, some "a1", some "First", ⟨⟨2024, 1, 1⟩, ⟨0, 0, 0, 0⟩, none⟩⟩),
      .call (.upsertTags [⟨"", "one"⟩, ⟨"", "two"⟩, ⟨"", "three"⟩]), .call (.addLinks 1 [3])]
    let links : RepositoryCall := .addLinks 1 [2, 3]
    perform before {} = .opened {} (.live rows) ∧
      use links.access (perform before {}) = .error (.store .linked) (.opened {} (.live kept)) ∧
      kept ≠ rows ∧ perform (before ++ [.call links, .commit]) {} = .opened kept (.live kept) :=
  ⟨by decide +kernel, rfl, by decide, by decide +kernel⟩

end UnitOfWork

end GalleryCatalog
