import GalleryCatalog.Proofs.Atomicity
import GalleryCatalog.Proofs.Reordering

/-!
# What a call leaves alone

A call on an archive works on the rows of this archive, whether it returns or fails. The
archives, the rows of every other archive and the tags that have a row stay as they are, and
so does every collection that the call is not about.
-/

set_option autoImplicit false

namespace GalleryCatalog

open Reconcile

/-- Two stores agree on the collections that metadata leave out. -/
structure Metadata.LeavesOut (m : Metadata) (s s' : Store) : Prop where
  sources : m.sources = none → s'.sources = s.sources
  images : m.images = none → s'.images = s.images
  tags : m.tags = none → s'.tags = s.tags ∧ s'.links = s.links

/-- The archive that a call is on. A new archive is not there before. -/
def Call.archive? : Call → Option Int
  | .createArchive _ _ => none
  | .syncSources id _ _ _ => some id
  | .syncImages id _ => some id
  | .syncTags id _ => some id
  | .reconcile id _ _ _ => some id
  | .importFile id _ _ _ => some id

/-- The collections that a call is about. There are none if its file cannot be read. -/
def Call.metadata? (p : Application) : Call → Option Metadata
  | .createArchive _ _ => none
  | .syncSources _ _ _ xs => some { sources := some xs }
  | .syncImages _ is => some { images := some is }
  | .syncTags _ ts => some { tags := some ts }
  | .reconcile _ _ _ m => some m
  | .importFile _ path _ _ =>
    match Action.readMetadata path p with
    | .ok m _ => some m
    | .error _ _ => none

theorem Metadata.leavesOut_refl (m : Metadata) (s : Store) : m.LeavesOut s s :=
  ⟨fun _ => rfl, fun _ => rfl, fun _ => ⟨rfl, rfl⟩⟩

theorem Store.leaves_refl (s : Store) (archive : Int) : s.Leaves archive s :=
  ⟨rfl, rfl, rfl, rfl, List.prefix_rfl⟩

theorem Reconciliation.after_leavesOut (r : Reconciliation) (s : Store) :
    r.metadata.LeavesOut s (r.after s) where
  sources := reconciled_no_sources _ _ _ s
  images := reconciled_no_images _ _ _ s
  tags := reconciled_no_tags _ _ _ s

/-- A job on an archive leaves what its passes leave if it returns, and the store that it has
found if it fails, whatever errors the database has given. -/
theorem Job.left_unit {job : Job} {r : Reconciliation} (hr : job.reconciliation? = some r)
    {w : Workspace} {s : Store} (hw : w.unit = .closed s) :
    (Work.left job.run w).unit = .closed (if Work.returns job.run w then r.after s else s) := by
  cases hrun : job.run w with
  | ok o u =>
    have hcalm := job.run_unimpeded w u o hrun
    rw [← Workspace.closedOn_of_closed hw] at hcalm
    rw [Work.left_of_ok hrun, Work.returns, hrun]
    exact (Reconciliation.returns_of_run hr hcalm).unit
  | error f u =>
    rw [Work.left_of_error hrun, Job.run_error hw hrun, Work.returns, hrun]
    rfl

namespace Call

variable {p q : Application} {e : Engine} {t : Terms} {c : Call} {id : Int}

/-- The job of a call reconciles the archive of the call with its collections. -/
theorem job_reconciliation {job : Job} (hc : c.archive? = some id) (h : c.job t p = .ok job q) :
    ∃ r, job.reconciliation? = some r ∧ r.archive = id ∧ c.metadata? p = some r.metadata := by
  cases c with
  | createArchive hash title => cases hc
  | importFile archive path merge verbose =>
    obtain ⟨m, p₁, hread, h⟩ := Work.bind_eq_ok.mp h
    obtain ⟨context, p₂, -, h⟩ := Work.bind_eq_ok.mp h
    obtain ⟨rfl, -⟩ := Work.pure_eq_ok.mp h
    exact ⟨_, rfl, Option.some.inj hc, by rw [metadata?, hread]⟩
  | _ =>
    obtain ⟨context, p₁, -, h⟩ := Work.bind_eq_ok.mp h
    obtain ⟨rfl, -⟩ := Work.pure_eq_ok.mp h
    exact ⟨_, rfl, Option.some.inj hc, rfl⟩

/-- A call on an archive leaves what its reconciliation leaves if it returns, and every store
as it was if it fails. -/
theorem left_stores (hp : p.Serves e) (hc : c.archive? = some id) :
    let q := Work.left (c.perform t) p
    (∀ e', e' ≠ e → q.storeOf e' = p.storeOf e') ∧
      (q.storeOf e = p.storeOf e ∧ Work.returns (c.perform t) p = false ∨
        ∃ job p' r, c.job t p = .ok job p' ∧ job.reconciliation? = some r ∧ r.archive = id ∧
          c.metadata? p = some r.metadata ∧ Work.returns (c.perform t) p = true ∧
          q.storeOf e = r.after (p.storeOf e)) := by
  rcases c.perform_ends hp t with
    ⟨f, q, -, hreads, hleft, hreturns⟩ | ⟨job, p', hjob, hreads, hleft, hreturns⟩
  · rw [hleft]
    exact ⟨fun e' _ => hreads.storeOf e', .inl ⟨hreads.storeOf e, hreturns⟩⟩
  · obtain ⟨r, hr, hid, hm⟩ := job_reconciliation hc hjob
    have hunit := Job.left_unit hr (hreads.workspace_unit e)
    have hstores (e' : Engine) := p'.storeOf_after e e' (Work.left job.run (p'.workspace e none))
    rw [hleft]
    refine ⟨fun e' he => ?_, ?_⟩
    · rw [hstores, if_neg he, hreads.storeOf]
    · rw [hstores, if_pos rfl, hunit, hreturns]
      cases Work.returns job.run (p'.workspace e none) with
      | false => exact .inl ⟨rfl, rfl⟩
      | true => exact .inr ⟨job, p', r, hjob, hr, hid, hm, rfl, rfl⟩

end Call

/-- Whether or not a call on an archive returns, the archives, what belongs to every other
archive and the tags that have a row stay, and so do the collections that the call is not
about. -/
theorem Call.leaves_rest {p : Application} {e : Engine} {t : Terms} {c : Call} {id : Int}
    (hp : p.Serves e) (hc : c.archive? = some id) :
    let s : Store := p.storeOf e
    let s' : Store := (Work.left (c.perform t) p).storeOf e
    s'.archives = s.archives ∧ (∀ archive, archive ≠ id → s.Leaves archive s') ∧
      s.tags <+: s'.tags ∧ (∀ m, c.metadata? p = some m → m.LeavesOut s s') ∧
      (c.metadata? p = none → s' = s) ∧
      ∀ e', e' ≠ e → (Work.left (c.perform t) p).storeOf e' = p.storeOf e' := by
  obtain ⟨hothers, ⟨hsame, -⟩ | ⟨job, p', r, -, -, rfl, hm, -, hafter⟩⟩ :=
    left_stores (t := t) hp hc
  · dsimp only
    rw [hsame]
    exact ⟨rfl, fun archive _ => Store.leaves_refl _ archive, List.prefix_rfl,
      fun m _ => m.leavesOut_refl _, fun _ => rfl, hothers⟩
  · dsimp only
    rw [hafter, hm]
    refine ⟨(reconciled_rest _ _ _ _ _).1, fun archive ha => reconciled_leaves _ _ _ _ ha,
      reconciled_prefix _ _ _ _, ?_, fun hnone => (Option.some_ne_none _ hnone).elim, hothers⟩
    intro m hsame
    obtain rfl := Option.some.inj hsame
    exact r.after_leavesOut _

/-- Two archives with the same source, page and tag. -/
def Application.shared : Application where
  stores := [(.memory 0,
    { Store.withBoth with
      sources := [⟨1, 1, "Web", none⟩, ⟨2, 2, "Web", none⟩]
      images := [⟨1, 1, 1, "1.png", none, none⟩, ⟨2, 2, 1, "1.png", none, none⟩]
      tags := [⟨1, ⟨"tag", "red"⟩⟩]
      links := [⟨1, 1⟩, ⟨2, 1⟩] })]
  bound := some (.memory 0)

/-- Take the sources and tags from the first archive, and leave its images. -/
def Call.clearFirst : Call :=
  .reconcile 1 false false { sources := some [], tags := some [] }

theorem Call.clearFirst_rest :
    let q := Work.left (clearFirst.perform Terms.removing) Application.shared
    Application.shared.Serves (.memory 0) ∧ clearFirst.archive? = some 1 ∧
      (q.storeOf (.memory 0)).sources = [⟨2, 2, "Web", none⟩] ∧
      (q.storeOf (.memory 0)).images = (Application.shared.storeOf (.memory 0)).images ∧
      (⟨1, ⟨"tag", "red"⟩⟩ : TagRow) ∈ (q.storeOf (.memory 0)).tags ∧
      (q.storeOf (.memory 0)).links.filter (·.archive = 2) = [⟨2, 1⟩] := by
  obtain ⟨-, hothers, htags, houtside, -⟩ := leaves_rest (t := Terms.removing)
    (c := clearFirst) (p := Application.shared) (e := .memory 0) ⟨rfl, rfl⟩ rfl
  refine ⟨⟨rfl, rfl⟩, rfl, by decide +kernel, (houtside _ rfl).images rfl,
    htags.subset ?_, (hothers 2 (by decide)).links⟩
  decide +kernel

end GalleryCatalog
