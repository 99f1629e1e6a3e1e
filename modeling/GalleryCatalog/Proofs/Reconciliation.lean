import GalleryCatalog.Proofs.Call

/-!
# Reconciliations

A job on an archive that is there reconciles some of its collections. The service for one
collection does what a reconciliation of metadata with this collection alone does, so what
is shown of reconciliations holds for all four services.
-/

set_option autoImplicit false

namespace GalleryCatalog

open Service (Context)

/-- What an archive is reconciled with, and on which terms. -/
structure Reconciliation where
  context : Context
  archive : Int
  merge : Bool := false
  verbose : Bool := false
  metadata : Metadata

def Reconciliation.options (p : Reconciliation) : Reconcile.Options :=
  p.context.options p.merge p.verbose

/-- The reconciliation that a job does. A new archive is not reconciled with anything. -/
def Job.reconciliation? : Job → Option Reconciliation
  | .createArchive _ _ _ => none
  | .syncSources c id merge verbose xs =>
    some { context := c, archive := id, merge, verbose, metadata := { sources := some xs } }
  | .syncImages c id is => some { context := c, archive := id, metadata := { images := some is } }
  | .syncTags c id ts => some { context := c, archive := id, metadata := { tags := some ts } }
  | .reconcile c id merge verbose m =>
    some { context := c, archive := id, merge, verbose, metadata := m }

/-- What was given back, by collections. -/
def Returned.outcome (archive : Int) : Returned → ArchiveOutcome
  | .archive _ => { archive }
  | .sources o => { archive, sources := some o }
  | .images o => { archive, images := some o }
  | .tags o => { archive, tags := some o }
  | .all o => o

namespace Reconcile

variable (answers : TagAnswers) (o : Options) (files : Option PageFile.Directory) (id : Int)
  (hash : String)

theorem archive_sources (xs : List Source) :
    archive answers o files id hash { sources := some xs } =
      (fun part => { archive := id, sources := some part }) <$>
        sources id o.sourceRules o.mergeSources o.verbose xs := by
  simp only [archive, optionally, map_eq_pure_bind, bind_assoc, pure_bind]

theorem archive_images (is : List Image) :
    archive answers o files id hash { images := some is } =
      (fun part => { archive := id, images := some part }) <$>
        images id hash files o.removeOnUpdate is := by
  simp only [archive, optionally, map_eq_pure_bind, bind_assoc, pure_bind]

theorem archive_tags (ts : List Tag) :
    archive answers o files id hash { tags := some ts } =
      (fun part => { archive := id, tags := some part }) <$> tags answers id o.tagRules ts := by
  simp only [archive, optionally, map_eq_pure_bind, bind_assoc, pure_bind]

end Reconcile

open Reconcile (Done reconciled)

/-- A reconciliation of an archive has returned: it has found the row of the archive, done its
passes and committed what they leave. -/
structure Reconciliation.Returns (p : Reconciliation) (w : Workspace) (s : Store)
    (r : ArchiveOutcome) (u : Workspace) : Prop where
  integer : fits p.archive = true
  stored : ∃ row, s.row? p.archive = some row ∧ ∃ w' v : Workspace, w'.tree = w.tree ∧
    u.tree = v.tree ∧
    Done p.context.answers p.options (some p.context.files) p.archive row.hash p.metadata
      w' s r v
  unit : u.unit = .closed (reconciled p.context.answers p.options p.archive p.metadata s)

namespace Reconciliation

variable {p : Reconciliation} {w u : Workspace} {s : Store}

theorem returns_of_work {α : Type} {a : α} {x : ArchiveRow → Work α} {k : α → ArchiveOutcome}
    (hwithin : ∀ row, Work.Keeps Work.Within (x row))
    (hx : ∀ row, Reconcile.archive p.context.answers p.options (some p.context.files)
      p.archive row.hash p.metadata = k <$> x row)
    (h : Service.forArchive p.archive x (w.closedOn s) = .ok a u) :
    p.Returns w s (k a) u := by
  obtain ⟨hid, row, hrow, v, s', hrun, rfl⟩ := Service.forArchive_eq_ok hwithin h
  have harchive : Reconcile.archive p.context.answers p.options (some p.context.files)
      p.archive row.hash p.metadata ((w.closedOn s).on s) = .ok (k a) (v.on s') := by
    rw [hx row]
    exact Work.map_eq_ok.mpr ⟨a, hrun, rfl⟩
  have hdone := Reconcile.archive_eq_ok hid harchive
  obtain rfl : s' = reconciled p.context.answers p.options p.archive p.metadata s := by
    simpa using hdone.store
  exact ⟨hid, ⟨row, hrow, w.closedOn s, v.on _, rfl, rfl, hdone⟩, rfl⟩

theorem returns_of_run {job : Job} {r : Returned} (hp : job.reconciliation? = some p)
    (h : job.run (w.closedOn s) = .ok r u) : p.Returns w s (r.outcome p.archive) u := by
  cases job with
  | createArchive now hash title => cases hp
  | syncSources c id merge verbose xs =>
    obtain rfl := Option.some.inj hp
    obtain ⟨o, hrun, rfl⟩ := Work.map_eq_ok.mp h
    exact returns_of_work
      (p := ⟨c, id, merge, verbose, { sources := some xs }⟩)
      (x := fun _ => Reconcile.sources id c.settings.sourceRules merge verbose xs)
      (fun _ => Reconcile.sources_within _ _ _ _ _)
      (fun row => Reconcile.archive_sources _ _ _ id row.hash xs) hrun
  | syncImages c id is =>
    obtain rfl := Option.some.inj hp
    obtain ⟨o, hrun, rfl⟩ := Work.map_eq_ok.mp h
    exact returns_of_work
      (p := ⟨c, id, false, false, { images := some is }⟩)
      (x := fun row => Reconcile.images id row.hash (some c.files) c.settings.removeOnUpdate is)
      (fun _ => Reconcile.images_within _ _ _ _ _)
      (fun row => Reconcile.archive_images _ _ _ id row.hash is) hrun
  | syncTags c id ts =>
    obtain rfl := Option.some.inj hp
    obtain ⟨o, hrun, rfl⟩ := Work.map_eq_ok.mp h
    exact returns_of_work
      (p := ⟨c, id, false, false, { tags := some ts }⟩)
      (x := fun _ => Reconcile.tags c.answers id c.settings.tagRules ts)
      (fun _ => Reconcile.tags_within _ _ _ _)
      (fun row => Reconcile.archive_tags _ _ _ id row.hash ts) hrun
  | reconcile c id merge verbose m =>
    obtain rfl := Option.some.inj hp
    obtain ⟨o, hrun, rfl⟩ := Work.map_eq_ok.mp h
    obtain ⟨hid, row, hrow, w', v, hw, hdone, hunit, hu⟩ := Service.reconcile_eq_ok hrun
    exact ⟨hid, ⟨row, hrow, w', v, hw, hu, hdone⟩, hunit⟩

/-! ## The job of a reconciliation -/

/-- The job that reconciles all collections at once. -/
def job (p : Reconciliation) : Job :=
  .reconcile p.context p.archive p.merge p.verbose p.metadata

/-- What is done to an archive within the unit of work. -/
def passes (p : Reconciliation) (row : ArchiveRow) : Work ArchiveOutcome :=
  Reconcile.archive p.context.answers p.options (some p.context.files) p.archive row.hash
    p.metadata

/-- The workspace in which the unit of work is opened. -/
def begun (p : Reconciliation) (w : Workspace) (s : Store) : Workspace :=
  (w.told (.reconciling p.archive p.metadata)).closedOn s

theorem run_of_service {f : Failure}
    (h : Service.reconcileWith p.context.answers p.options (some p.context.files) p.archive
      p.metadata (p.begun w s) = .error f u) : p.job.run (w.closedOn s) = .error f u := by
  apply Work.map_eq_error.mpr
  rw [Service.reconcile_told]
  exact Work.bind_of_error h

/-- A reconciliation that fails leaves the store as it was. -/
theorem eq_of_run_error {f : Failure} (h : p.job.run (w.closedOn s) = .error f u) :
    ∃ v : Workspace, u = v.closedOn s := by
  have hrun := Work.map_eq_error.mp h
  rw [Service.reconcile_told] at hrun
  rcases Work.bind_eq_error.mp hrun with hservice | ⟨o, v, -, hrest⟩
  · have hwithin : Work.Keeps Work.Within (Service.onRow p.archive fun row => Reconcile.archive
        p.context.answers p.options (some p.context.files) row.id row.hash p.metadata) :=
      Service.onRow_within fun _ => Reconcile.archive_within _ _ _ _ _ _
    exact ⟨_, Service.inUnit_eq_error hwithin hservice⟩
  · cases hrest

section Row

variable {row : ArchiveRow} {v : Workspace} {s' : Store} (hid : fits p.archive = true)
  (hrow : s.row? p.archive = some row)
include hid hrow

theorem run_ok {o : ArchiveOutcome}
    (h : p.passes row ((p.begun w s).on s) = .ok o (v.on s')) :
    p.job.run (w.closedOn s) = .ok (.all o) ((v.closedOn s').told (.finished o)) :=
  Work.map_eq_ok.mpr ⟨o, Service.reconcile_ok hid hrow h, rfl⟩

theorem run_error {f : Failure} (h : p.passes row ((p.begun w s).on s) = .error f (v.on s')) :
    ∃ u, p.job.run (w.closedOn s) = .error f u := by
  obtain ⟨-, hsame⟩ := Store.row?_mem hrow
  have hwork : Service.onRow p.archive (fun row => Reconcile.archive p.context.answers p.options
      (some p.context.files) row.id row.hash p.metadata) ((p.begun w s).on s) =
      p.passes row ((p.begun w s).on s) := by
    rw [Service.onRow_on hid hrow, hsame]
    rfl
  exact ⟨_, run_of_service (Service.inUnit_error (hwork.trans h) rfl rfl)⟩

end Row

end Reconciliation

end GalleryCatalog
