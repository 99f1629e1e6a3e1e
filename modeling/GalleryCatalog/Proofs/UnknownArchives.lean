import GalleryCatalog.Proofs.Atomicity
import GalleryCatalog.Proofs.Convergence
import GalleryCatalog.Proofs.Reconciliation

/-!
# Unknown archives

A call on an archive that is not there fails before it has done anything and names the archive. No
call on an archive that is there fails like this, since work on its row fails only with what the
unit of work says or for want of the row of a tag. Numbers that no column holds are left out: the
database refuses them before it looks for an archive. So are errors of the database itself.
-/

set_option autoImplicit false

namespace GalleryCatalog

namespace Work

/-! ## What work fails with -/

/-- Whatever work starts from, it fails only with certain failures. -/
def FailsOnly {α : Type} (P : Failure → Prop) (x : Work α) : Prop :=
  ∀ ⦃w v : Workspace⦄ ⦃f : Failure⦄, x w = .error f v → P f

theorem bind_failsOnly {α β : Type} {P : Failure → Prop} {x : Work α} {f : α → Work β}
    (hx : FailsOnly P x) (hf : ∀ a, FailsOnly P (f a)) : FailsOnly P (x >>= f) := by
  intro w u e h
  rcases bind_eq_error.mp h with hfirst | ⟨a, v, -, hrest⟩
  · exact hx hfirst
  · exact hf a hrest

/-- Work fails with what the unit of work says, or for want of the row of a tag. -/
theorem failsOnly_compositional {P : Failure → Prop} (hunit : ∀ e, P (.unit e))
    (htag : ∀ archive t, P (.tagWithoutRow archive t)) :
    Compositional fun x => FailsOnly P x where
  pure _ _ _ _ h := nomatch h
  bind := bind_failsOnly
  access x w v f h := by
    obtain ⟨e, rfl⟩ := access_eq_error h
    exact hunit e
  notify _ _ _ _ h := nomatch h
  noRow archive t w v f h := by
    obtain ⟨rfl, -⟩ := EStateM.Result.error.inj h
    exact htag archive t

end Work

/-- A failure that does not say that an archive is missing. -/
def Failure.FindsArchive (f : Failure) : Prop :=
  ∀ n, f ≠ .noArchive n

open Work (FailsOnly)

theorem Work.findsArchive_compositional :
    Work.Compositional fun x => FailsOnly Failure.FindsArchive x :=
  Work.failsOnly_compositional (fun _ _ => nofun) fun _ _ _ => nofun

theorem Work.onFiles_findsArchive {α : Type} (f : FileTree → α × FileTree) :
    FailsOnly Failure.FindsArchive (Work.onFiles f) :=
  fun _ _ _ h => nomatch h

/-- With its archive there, a service does not say that it is missing unless its work does. -/
theorem Service.forArchive_findsArchive {α : Type} {work : ArchiveRow → Work α} {w u : Workspace}
    {s : Store} {id : Int} {f : Failure} (hwithin : ∀ row, Work.Keeps Work.Within (work row))
    (hwork : ∀ row, FailsOnly Failure.FindsArchive (work row)) (hid : fits id = true)
    (ha : s.HasArchive id) (h : forArchive id work (w.closedOn s) = .error f u) :
    f.FindsArchive := by
  obtain ⟨row, hrow⟩ := Store.hasArchive_iff.mp ha
  rcases forArchive_fails hwithin hid hrow h with ⟨v, hfails⟩ | rfl
  · exact hwork row hfails
  · exact fun _ => nofun

/-! ## Jobs -/

namespace Job

open Service (onRow)

variable {job : Job} {r : Reconciliation} {w u : Workspace} {s : Store} {f : Failure}

/-- On an archive that is there a job does not say that there is none. -/
theorem run_stored (hr : job.reconciliation? = some r) (hid : fits r.archive = true)
    (ha : s.HasArchive r.archive) (h : job.run (w.closedOn s) = .error f u) : f.FindsArchive := by
  have hwork := Work.findsArchive_compositional
  cases job with
  | createArchive now hash title => cases hr
  | syncSources c id merge verbose xs =>
    obtain rfl := Option.some.inj hr
    have hservice := Work.map_eq_error.mp h
    exact Service.forArchive_findsArchive (fun _ => Reconcile.sources_within _ _ _ _ _)
      (fun _ => Reconcile.sources_compositional hwork _ _ _ _ _) hid ha hservice
  | syncImages c id is =>
    obtain rfl := Option.some.inj hr
    have hservice := Work.map_eq_error.mp h
    exact Service.forArchive_findsArchive (fun _ => Reconcile.images_within _ _ _ _ _)
      (fun _ => Reconcile.images_compositional hwork Work.onFiles_findsArchive _ _ _ _ _) hid ha
      hservice
  | syncTags c id ts =>
    obtain rfl := Option.some.inj hr
    have hservice := Work.map_eq_error.mp h
    exact Service.forArchive_findsArchive (fun _ => Reconcile.tags_within _ _ _ _)
      (fun _ => Reconcile.tags_compositional hwork _ _ _ _) hid ha hservice
  | reconcile c id merge verbose m =>
    obtain rfl := Option.some.inj hr
    have hservice := Work.map_eq_error.mp h
    rw [Service.reconcile_told] at hservice
    rcases Work.bind_eq_error.mp hservice with hwith | ⟨o, v, -, hrest⟩
    · exact Service.forArchive_findsArchive (fun _ => Reconcile.archive_within _ _ _ _ _ _)
        (fun _ => Reconcile.archive_compositional hwork Work.onFiles_findsArchive _ _ _ _ _ _) hid
        ha hwith
    · cases hrest

/-- A job whose archive is missing gives no more than news. -/
theorem run_missing (hr : job.reconciliation? = some r)
    (hmissing : ∀ {α : Type} (work : ArchiveRow → Work α) (w : Workspace),
      onRow r.archive work (w.on s) = .error f (w.on s)) (w : Workspace) :
    ∃ news : List Notice, (∀ n ∈ news, n.severity = .info) ∧
      job.run (w.closedOn s) =
        .error f (({ w with notices := w.notices ++ news } : Workspace).closedOn s) := by
  have hstops {α : Type} (work : ArchiveRow → Work α) (w : Workspace) :
      Service.forArchive r.archive work (w.closedOn s) = .error f (w.closedOn s) :=
    Service.inUnit_error (hmissing work (w.closedOn s)) rfl rfl
  have hquiet : ({ w with notices := w.notices ++ [] } : Workspace) = w := by
    rw [List.append_nil]
  cases job with
  | createArchive now hash title => cases hr
  | reconcile c id merge verbose m =>
    obtain rfl := Option.some.inj hr
    refine ⟨[.reconciling id m], by simp [Notice.severity], Work.map_eq_error.mpr ?_⟩
    rw [Service.reconcile_told]
    exact Work.bind_of_error (hstops _ (w.told (.reconciling id m)))
  | _ =>
    obtain rfl := Option.some.inj hr
    refine ⟨[], by simp, Work.map_eq_error.mpr ?_⟩
    rw [hquiet]
    exact hstops _ w

end Job

/-! ## Calls -/

/-- An application in which nothing has changed but that it was told news. -/
structure Application.OnlyInformed (p q : Application) : Prop where
  stores : ∀ e, q.storeOf e = p.storeOf e
  tree : q.tree = p.tree
  told : ∃ news, q.notices = p.notices ++ news ∧ ∀ n ∈ news, n.severity = .info

/-- A call on an archive with what it is to be reconciled with. -/
inductive Call.GivenFor (id : Int) : Call → Prop
  | sources (merge verbose : Bool) (xs : List Source) :
    GivenFor id (.syncSources id merge verbose xs)
  | images (is : List Image) : GivenFor id (.syncImages id is)
  | tags (ts : List Tag) : GivenFor id (.syncTags id ts)
  | all (merge verbose : Bool) (m : Metadata) : GivenFor id (.reconcile id merge verbose m)

namespace Call

variable {p : Application} {e : Engine} {t : Terms} {c : Call} {id : Int}

/-- Settings are read without a trace, and are all that such a call reads. -/
theorem GivenFor.job (hc : c.GivenFor id) (hsettings : Work.returns t.context p = true) :
    ∃ job r, c.job t p = .ok job p ∧ job.reconciliation? = some r ∧ r.archive = id := by
  obtain ⟨context, q, hcontext⟩ := Work.eq_ok_of_returns hsettings
  have hsame : p = Work.left t.context p := t.context_keeps p
  rw [Work.left_of_ok hcontext] at hsame
  subst hsame
  cases hc <;> exact ⟨_, _, Work.bind_of_ok hcontext, rfl, rfl⟩

section Ends

variable (hp : p.Serves e) (hcalm : p.troubles = []) (hc : c.GivenFor id)
  (hsettings : Work.returns t.context p = true)
include hp hcalm hc hsettings

theorem missing_informed {f : Failure}
    (hmissing : ∀ {α : Type} (work : ArchiveRow → Work α) (w : Workspace),
      Service.onRow id work (w.on (p.storeOf e)) = .error f (w.on (p.storeOf e))) :
    ∃ q, c.perform t p = .error f q ∧ p.OnlyInformed q := by
  obtain ⟨job, r, hjob, hr, rfl⟩ := hc.job hsettings
  obtain ⟨news, hinfo, hrun⟩ := Job.run_missing hr hmissing (p.workspace e none)
  refine ⟨_, perform_of_error hp hjob hcalm hrun, fun e' => ?_, rfl, news, rfl, hinfo⟩
  rw [Application.storeOf_after]
  split_ifs with he
  · rw [he]
    rfl
  · rfl

theorem stored_not_missed (hid : fits id = true) (ha : (p.storeOf e).HasArchive id) (n : Int)
    (q : Application) : c.perform t p ≠ .error (.noArchive n) q := by
  obtain ⟨job, r, hjob, hr, rfl⟩ := hc.job hsettings
  intro hfails
  cases hrun : job.run ((p.workspace e none).closedOn (p.storeOf e)) with
  | ok o w => cases (perform_of_ok hp hjob hcalm hrun).symm.trans hfails
  | error f w =>
    obtain ⟨rfl, -⟩ :=
      EStateM.Result.error.inj ((perform_of_error hp hjob hcalm hrun).symm.trans hfails)
    exact Job.run_stored hr hid ha hrun n rfl

end Ends

/-- With settings that load, a call says that an archive is missing exactly when no archive with a
number in range is there, and it names the archive. Nothing has changed then, and no warning was
given. A number out of range ends the call in the same way but with another error. -/
theorem reports_unknown (hp : p.Serves e) (hcalm : p.troubles = []) (hc : c.GivenFor id)
    (hsettings : Work.returns t.context p = true) :
    (∀ n, (∃ q, c.perform t p = .error (.noArchive n) q) ↔
        n = id ∧ fits id = true ∧ ¬ (p.storeOf e).HasArchive id) ∧
      (∀ n q, c.perform t p = .error (.noArchive n) q → p.OnlyInformed q) ∧
      (fits id = false → ∃ q, c.perform t p = .error outOfRange q ∧ p.OnlyInformed q) := by
  by_cases hid : fits id = true
  · by_cases ha : (p.storeOf e).HasArchive id
    · have hnot := stored_not_missed hp hcalm hc hsettings hid ha
      exact ⟨fun n => iff_of_false (fun ⟨q, h⟩ => hnot n q h) fun h => h.2.2 ha,
        fun n q h => (hnot n q h).elim, fun hfalse => by simp [hid] at hfalse⟩
    · have hnone : (p.storeOf e).row? id = none := by
        rw [Option.eq_none_iff_forall_ne_some]
        exact fun row hrow => ha (Store.row?_hasArchive hrow)
      obtain ⟨q, hfails, hinformed⟩ :=
        missing_informed hp hcalm hc hsettings (Service.onRow_unknown hid hnone)
      rw [hfails]
      refine ⟨fun n => ⟨?_, ?_⟩, ?_, fun hfalse => by simp [hid] at hfalse⟩
      · rintro ⟨q', h⟩
        obtain ⟨⟨⟩, -⟩ := EStateM.Result.error.inj h
        exact ⟨rfl, hid, ha⟩
      · rintro ⟨rfl, -, -⟩
        exact ⟨q, rfl⟩
      · intro n q' h
        obtain ⟨-, rfl⟩ := EStateM.Result.error.inj h
        exact hinformed
  · obtain ⟨q, hfails, hinformed⟩ := missing_informed hp hcalm hc hsettings
      fun work w => Service.onRow_unfit hid work w (p.storeOf e)
    rw [hfails]
    refine ⟨fun n => iff_of_false ?_ fun h => hid h.2.1, fun n q' h => ?_,
      fun _ => ⟨q, rfl, hinformed⟩⟩
    · rintro ⟨q', h⟩
      cases (EStateM.Result.error.inj h).1
    · cases (EStateM.Result.error.inj h).1

end Call

/-- The database has rows of two archives, and the first one has a page file. -/
def Application.filled : Application where
  tree := Application.onePage.tree
  stores := [(.memory 0, .filled)]
  bound := some (.memory 0)

namespace Call

/-- Where two archives are stored, the seventh is missing and the first one is not. The number after
the last one in range is refused. -/
theorem seventh_archive_unknown :
    (∃ q, (Call.reconcile 7 false false .renewed).perform Terms.removing .filled =
        .error (.noArchive 7) q ∧ Application.filled.OnlyInformed q) ∧
      (∀ n q, (Call.reconcile 1 false false .renewed).perform Terms.removing .filled ≠
        .error (.noArchive n) q) ∧
      ∃ q, (Call.syncImages 0x8000000000000000 [⟨"1.jpg", 1, none, none⟩]).perform
          Terms.removing .filled = .error outOfRange q ∧ Application.filled.OnlyInformed q := by
  have hserves : Application.filled.Serves (.memory 0) := ⟨rfl, rfl⟩
  have hsettings : Work.returns Terms.removing.context .filled = true := rfl
  have hstored (id : Int) : (Application.filled.storeOf (.memory 0)).HasArchive id ↔
      id = 1 ∨ id = 2 := by
    change id ∈ [1, 2] ↔ _
    simp
  have hrenews (id : Int) : GivenFor id (.reconcile id false false .renewed) := .all ..
  obtain ⟨hmissing, hinformed, -⟩ := reports_unknown hserves rfl (hrenews 7) hsettings
  obtain ⟨hfirst, -⟩ := reports_unknown hserves rfl (hrenews 1) hsettings
  have himages : GivenFor 0x8000000000000000
    (.syncImages 0x8000000000000000 [⟨"1.jpg", 1, none, none⟩]) := .images _
  obtain ⟨-, -, hrefused⟩ := reports_unknown hserves rfl himages hsettings
  obtain ⟨q, hfails⟩ := (hmissing 7).mpr ⟨rfl, by decide, by simp [hstored]⟩
  refine ⟨⟨q, hfails, hinformed 7 q hfails⟩, fun n q h => ?_, hrefused (by decide)⟩
  exact ((hfirst n).mp ⟨q, h⟩).2.2 ((hstored 1).mpr (.inl rfl))

/-- So not every number that no archive has is reported. -/
theorem great_number_not_reported :
    ¬ ∀ (p : Application) (e : Engine) (t : Terms) (c : Call) (id : Int),
      p.Serves e → p.troubles = [] → c.GivenFor id → Work.returns t.context p = true →
        ¬ (p.storeOf e).HasArchive id → ∃ q, c.perform t p = .error (.noArchive id) q := by
  intro h
  obtain ⟨q, hmissing⟩ := h .blank (.memory 0) Terms.removing
    (.syncSources 0x8000000000000000 false false []) _ ⟨rfl, rfl⟩ rfl (.sources ..) rfl
    List.not_mem_nil
  have hfailure : Work.failure? ((Call.syncSources 0x8000000000000000 false false []).perform
      Terms.removing) .blank = some outOfRange := by decide +kernel
  rw [Work.failure?, hmissing] at hfailure
  cases hfailure

end Call

end GalleryCatalog
