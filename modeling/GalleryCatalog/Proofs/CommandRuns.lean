import GalleryCatalog.CommandLine.Run
import GalleryCatalog.Proofs.Opening

/-!
# How a run ends, and what it has done

A run that is done has carried out its command, and what the command changed is committed.
With the status for refused arguments, or for help, nothing has changed. With the status for a
failure the operation has failed, and every row is as before. Besides these a run can break
off in the check of its arguments, which happens for an option without its value and for a
path with a name that is too long, and then nothing has changed either.
-/

set_option autoImplicit false

namespace GalleryCatalog

namespace Application

/-- An application that has not been used yet. -/
def New (p : Application) : Prop :=
  p.bound = none ∧ p.pending = none

variable {p q r : Application} {e : Engine}

theorem Reports.new (h : p.Reports q) (hp : p.New) : q.New := by
  obtain ⟨_, _, rfl⟩ := h
  exact hp

theorem Reports.finds (h : p.Reports q) (hq : q.Finds r e) : p.Finds r e := by
  obtain ⟨_, _, rfl⟩ := h
  exact ⟨hq.host, hq.rows, hq.others, hq.files⟩

theorem Reports.keepsRows (h : p.Reports q) : p.KeepsRows q := by
  obtain ⟨_, _, rfl⟩ := h
  exact keepsRows_of rfl fun _ _ => rfl

/-- Work that leaves the store as it was leaves all rows as they were. -/
theorem after_sameRows {w : Workspace} (h : w.unit.committed = p.storeOf e) :
    p.SameRows (p.after e w) := by
  intro l
  rw [storeOf_after]
  split_ifs with he
  · exact .inl (by rw [h, he])
  · exact .inl rfl

end Application

open Application (SameRows Reports)

/-! ## Services -/

namespace Action

variable {α : Type} {p q : Application} {x : Work α} {a : α} {f : Failure}

/-- Work whose failures leave the store as it was. -/
def Restores (x : Work α) : Prop :=
  ∀ (w u : Workspace) (s : Store) (f : Failure),
    w.unit = .closed s → x w = .error f u → u.unit.committed = s

theorem workAlone_sameRows {e : Engine} (hx : Restores x) (h : workAlone e x p = .error f q) :
    p.SameRows q := by
  obtain ⟨w, hrun, rfl⟩ := workAlone_eq_error h
  exact Application.after_sameRows (hx (p.workspace e none) w (p.storeOf e) f rfl hrun)

/-- Work that returns does so without errors of the database. -/
theorem workAlone_calm {e : Engine} (hx : Work.Unimpeded x) (h : workAlone e x p = .ok a q) :
    ∃ w, x ((p.workspace e none).closedOn (p.storeOf e)) = .ok a w ∧ q = p.after e w := by
  obtain ⟨w, hrun, rfl⟩ := workAlone_eq_ok h
  refine ⟨w.calm, ?_, rfl⟩
  rw [Workspace.closedOn_of_closed rfl]
  exact hx _ _ _ hrun

theorem service_eq_ok (hp : p.New) (hx : Work.Unimpeded x) (h : service x p = .ok a q) :
    ∃ e p' w, q.bound = some e ∧ p.Finds p' e ∧
      x ((p'.workspace e none).closedOn (p.rowsIn e)) = .ok a w ∧ q = p'.after e w := by
  obtain ⟨e, p', hengine, hwork⟩ := Work.bind_eq_ok.mp h
  obtain ⟨hbound, hfinds⟩ := engine_finds hp.1 hengine
  rw [(engine_serves hp.2 hengine).workOn] at hwork
  obtain ⟨w, hrun, rfl⟩ := workAlone_calm hx hwork
  rw [hfinds.rows] at hrun
  exact ⟨e, p', w, hbound, hfinds, hrun, rfl⟩

theorem service_sameRows (hp : p.New) (hx : Restores x) (h : service x p = .error f q) :
    p.SameRows q := by
  have hrows := engine_keepsRows p
  rcases Work.bind_eq_error.mp h with hengine | ⟨e, p', hengine, hwork⟩
  · rw [Work.left_of_error hengine] at hrows
    exact hrows.rows
  · rw [Work.left_of_ok hengine] at hrows
    rw [(engine_serves hp.2 hengine).workOn] at hwork
    exact hrows.then (workAlone_sameRows hx hwork)

end Action

namespace CommandLine

open GalleryCatalog.Action (Restores)

variable {now : Calendar.Moment} {p q : Application} {command : Command} {f : Failure}

/-! ## Checks -/

/-- A path leads to a file. -/
def LeadsToFile (p : Application) (path : Path) : Prop :=
  ∃ l, p.tree.locate p.host.here path = .ok l ∧ p.tree.isFile l = true

inductive Admits (p : Application) : Command → Prop
  | create {hash : String} {title : Option String} (h : Text.trim hash ≠ "") :
      Admits p (.create (some hash) title)
  | reconcile {id : Int} {path : Path} {verbose merge : Bool} (hid : 1 ≤ id)
      (hfile : LeadsToFile p path) : Admits p (.reconcile (some id) (some path) verbose merge)

inductive Refuses (p : Application) : Command → ArgumentFault → Prop
  | blankHash {hash : String} {title : Option String} (h : Text.trim hash = "") :
      Refuses p (.create (some hash) title) .blankHash
  | badArchive {id : Int} {metadata : Option Path} {verbose merge : Bool} (h : id < 1) :
      Refuses p (.reconcile (some id) metadata verbose merge) (.badArchive id)
  | noFile {id : Int} {path : Path} {verbose merge : Bool} (hid : 1 ≤ id)
      (hfile : ¬ LeadsToFile p path)
      (hshort : p.tree.locate p.host.here path ≠ .error .nameTooLong) :
      Refuses p (.reconcile (some id) (some path) verbose merge) (.noMetadataFile path)

/-- What the check of a command is not prepared for. -/
inductive Breaks (p : Application) : Command → Failure → Prop
  | noHash {title : Option String} : Breaks p (.create none title) (.noValue .hash)
  | noArchive {metadata : Option Path} {verbose merge : Bool} :
      Breaks p (.reconcile none metadata verbose merge) (.noValue .archive)
  | noMetadata {id : Int} {verbose merge : Bool} (hid : 1 ≤ id) :
      Breaks p (.reconcile (some id) none verbose merge) (.noValue .metadata)
  | longName {id : Int} {path : Path} {verbose merge : Bool} (hid : 1 ≤ id)
      (hlong : p.tree.locate p.host.here path = .error .nameTooLong) :
      Breaks p (.reconcile (some id) (some path) verbose merge) (.file ⟨.nameTooLong, path⟩)

section AddArchive

variable {hash : String} {title : Option String} {w u : Workspace} {s : Store} {a : Archive}

/-- What is done for an archive without a title. -/
theorem refuseTitle_within (hash : String) : Work.Keeps Work.Within
    (Service.requireFree hash >>= fun _ => (throw (.noValue .title) : Work Archive)) :=
  Work.bind_keeps (Service.requireFree_keeps Work.access_within hash) fun _ => Work.throw_keeps _

theorem addArchive_restores (now : Calendar.Moment) (hash : String) (title : Option String) :
    Restores (addArchive now hash title) := by
  intro w u s f hw h
  cases title with
  | some title => exact congrArg UnitOfWork.committed (Service.createArchive_eq_error hw h).1
  | none =>
    exact congrArg UnitOfWork.committed
      (Service.inUnit_fails_anyhow (refuseTitle_within hash) hw h).1

theorem addArchive_unimpeded (now : Calendar.Moment) (hash : String) (title : Option String) :
    Work.Unimpeded (addArchive now hash title) := by
  cases title with
  | some title => exact Service.createArchive_unimpeded now hash title
  | none =>
    exact Service.inUnit_unimpeded (Work.bind_unimpeded (Service.requireFree_unimpeded hash)
      fun _ => Work.throw_unimpeded _)

theorem addArchive_eq_ok (h : addArchive now hash title (w.closedOn s) = .ok a u) :
    ∃ row : ArchiveRow, row.hash = hash ∧ title = some row.title ∧
      u.unit = .closed (s.withArchive row) := by
  cases title with
  | some title =>
    obtain ⟨row, hunit, rfl, -, -⟩ := Service.createArchive_eq_ok h
    obtain ⟨rfl, rfl⟩ := Service.createArchive_gives h
    exact ⟨row, rfl, rfl, hunit⟩
  | none =>
    obtain ⟨v, s', hwork, -⟩ := Service.inUnit_eq_ok (refuseTitle_within hash) h
    obtain ⟨_, v', -, hthrow⟩ := Work.bind_eq_ok.mp hwork
    cases hthrow

end AddArchive

/-! ## Reconciling with a file -/

section ImportFile

variable {id : Int} {path : Path} {merge verbose : Bool} {o : ArchiveOutcome}

theorem reconcile_restores (c : Service.Context) (id : Int) (merge verbose : Bool)
    (m : Metadata) : Restores (Service.reconcile c id merge verbose m) :=
  fun _ _ _ _ hw h => congrArg UnitOfWork.committed (Service.reconcile_eq_error hw h).1

theorem readMetadata_eq_ok {m : Metadata} (h : Action.readMetadata path p = .ok m q) :
    (Payload.load p.reported p.tree p.host.here path).outcome = .ok m ∧ p.Reports q := by
  have hreads := readMetadata_reports path p
  rw [Work.left_of_ok h] at hreads
  refine ⟨?_, hreads⟩
  unfold Action.readMetadata at h
  dsimp only at h
  cases hload : (Payload.load p.reported p.tree p.host.here path).outcome with
  | ok m' =>
    rw [hload] at h
    rw [(EStateM.Result.ok.inj h).1]
  | error e => simp [hload] at h

theorem context_eq_ok {c : Service.Context} (h : Action.context p = .ok c q) :
    ∃ settings, Settings.load p.host p.tree none none = .ok settings ∧
      c = { settings, here := p.host.here } ∧ p = q := by
  obtain ⟨settings, p', hsettings, h⟩ := Work.bind_eq_ok.mp h
  rw [Work.get_bind_apply] at h
  obtain ⟨rfl, rfl⟩ := Work.pure_eq_ok.mp h
  unfold Action.settings at hsettings
  rw [Work.get_bind_apply] at hsettings
  cases hload : Settings.load p.host p.tree none none with
  | ok settings' =>
    rw [hload] at hsettings
    obtain ⟨rfl, rfl⟩ := Work.pure_eq_ok.mp hsettings
    exact ⟨settings', rfl, rfl, rfl⟩
  | error e =>
    rw [hload] at hsettings
    cases hsettings

/-- An import that fails has changed no rows, wherever it fails. -/
theorem importFile_sameRows (hp : p.New)
    (h : Action.importFile Action.context id path merge verbose p = .error f q) :
    p.SameRows q := by
  -- A later step starts from what the earlier ones left, so their rows are carried along.
  have hread := readMetadata_reports path p
  rcases Work.bind_eq_error.mp h with hfailed | ⟨m, p₁, hmetadata, h⟩
  · rw [Work.left_of_error hfailed] at hread
    exact hread.keepsRows.rows
  rw [Work.left_of_ok hmetadata] at hread
  apply hread.keepsRows.then
  have hopened := Action.engine_keepsRows p₁
  rcases Work.bind_eq_error.mp h with hfailed | ⟨e, p₂, hengine, h⟩
  · rw [Work.left_of_error hfailed] at hopened
    exact hopened.rows
  rw [Work.left_of_ok hengine] at hopened
  apply hopened.then
  rcases Work.bind_eq_error.mp h with hfailed | ⟨c, p₃, hcontext, hwork⟩
  · have hreads := context_reports p₂
    rw [Work.left_of_error hfailed] at hreads
    exact hreads.keepsRows.rows
  obtain ⟨settings, -, -, rfl⟩ := context_eq_ok hcontext
  rw [(Action.engine_serves (hread.new hp).2 hengine).workOn] at hwork
  exact Action.workAlone_sameRows (reconcile_restores c id merge verbose m) hwork

/-- An import that returns has read the file, found the rows, and reconciled them under the
settings that were found after that. -/
theorem importFile_eq_ok (hp : p.New)
    (h : Action.importFile Action.context id path merge verbose p = .ok o q) :
    ∃ m settings e p', (Payload.load p.reported p.tree p.host.here path).outcome = .ok m ∧
      p.Finds p' e ∧ Settings.load p.host p'.tree none none = .ok settings ∧
      q.bound = some e ∧
      q.storeOf e = Reconcile.reconciled {}
        (Service.Context.options { settings, here := p.host.here } merge verbose) id m
        (p.rowsIn e) ∧
      ∀ e', e' ≠ e → q.storeOf e' = p.storeOf e' := by
  obtain ⟨m, p₁, hmetadata, h⟩ := Work.bind_eq_ok.mp h
  obtain ⟨hload, hread⟩ := readMetadata_eq_ok hmetadata
  obtain ⟨e, p₂, hengine, h⟩ := Work.bind_eq_ok.mp h
  obtain ⟨hbound, hopened⟩ := Action.engine_finds (hread.new hp).1 hengine
  have hfinds := hread.finds hopened
  obtain ⟨c, p₃, hcontext, hwork⟩ := Work.bind_eq_ok.mp h
  obtain ⟨settings, hsettings, rfl, rfl⟩ := context_eq_ok hcontext
  rw [(Action.engine_serves (hread.new hp).2 hengine).workOn] at hwork
  obtain ⟨w, hrun, rfl⟩ := Action.workAlone_calm (Service.reconcile_unimpeded _ _ _ _ _) hwork
  obtain ⟨-, -, -, -, -, -, -, hunit, -⟩ := Service.reconcile_eq_ok hrun
  rw [hfinds.host] at hsettings hunit
  refine ⟨m, settings, e, p₂, hload, hfinds, hsettings, hbound, ?_, fun e' he => ?_⟩
  · rw [Application.storeOf_after, if_pos rfl, hunit, hfinds.rows, UnitOfWork.closed_committed]
  · rw [Application.storeOf_after, if_neg he]
    exact hfinds.others e' he

end ImportFile

/-! ## Runs -/

theorem tellEach_eq {α : Type} (notice : α → Notice) (o : Option α) (p : Application) :
    tellEach notice o p =
      .ok () { p with notices := p.notices ++ (o.map notice).toList } := by
  cases o with
  | some a => rfl
  | none => simp [tellEach, pure, EStateM.pure]

/-- The notices of a reconciliation. -/
def counts (o : ArchiveOutcome) : List Notice :=
  (o.sources.map Notice.sourceCounts).toList ++ (o.tags.map Notice.tagCounts).toList ++
    (o.images.map Notice.imageCounts).toList

theorem perform_create (now : Calendar.Moment) (hash : String) (title : Option String) :
    perform now (.create (some hash) title) =
      Action.service (addArchive now (Text.trim hash) title) >>= fun archive =>
        tellEach .created archive.id := rfl

theorem perform_reconcile (now : Calendar.Moment) (id : Int) (path : Path)
    (verbose merge : Bool) :
    perform now (.reconcile (some id) (some path) verbose merge) =
      Action.importFile Action.context id path merge verbose >>= fun outcome =>
        modify fun p => { p with notices := p.notices ++ counts outcome } := by
  refine congrArg (Action.importFile Action.context id path merge verbose >>= ·) ?_
  funext outcome p
  rw [Work.bind_of_ok (tellEach_eq _ _ _), Work.bind_of_ok (tellEach_eq _ _ _), tellEach_eq]
  simp [counts]

/-- What a command does when it succeeds: it finds its database, where the archive is added
under the trimmed hash and the title, or the metadata of the file is applied to the archive as
an import of that file does. -/
inductive CarriedOut (p : Application) : Command → Application → Prop
  | created {hash title : String} {q : Application} {e : Engine} {row : ArchiveRow}
      (bound : q.bound = some e) (trimmed : row.hash = Text.trim hash) (titled : row.title = title)
      (rows : q.storeOf e = (p.rowsIn e).withArchive row)
      (others : ∀ e', e' ≠ e → q.storeOf e' = p.storeOf e') :
      CarriedOut p (.create (some hash) (some title)) q
  | reconciled {id : Int} {path : Path} {verbose merge : Bool} {q found imported : Application}
      {o : ArchiveOutcome} {m : Metadata} {e : Engine} {settings : Settings}
      (imports : Action.importFile Action.context id path merge verbose p = .ok o imported)
      (reports : imported.Reports q)
      (reads : (Payload.load p.reported p.tree p.host.here path).outcome = .ok m)
      (finds : p.Finds found e)
      (loads : Settings.load p.host found.tree none none = .ok settings)
      (bound : q.bound = some e)
      (rows : q.storeOf e = Reconcile.reconciled {}
        (Service.Context.options { settings, here := p.host.here } merge verbose) id m
        (p.rowsIn e))
      (others : ∀ e', e' ≠ e → q.storeOf e' = p.storeOf e') :
      CarriedOut p (.reconcile (some id) (some path) verbose merge) q

theorem create_carriedOut {hash : String} {title : Option String} (hp : p.New)
    (h : perform now (.create (some hash) title) p = .ok () q) :
    CarriedOut p (.create (some hash) title) q := by
  rw [perform_create] at h
  obtain ⟨archive, p', hservice, htell⟩ := Work.bind_eq_ok.mp h
  rw [tellEach_eq] at htell
  obtain rfl := (EStateM.Result.ok.inj htell).2
  obtain ⟨e, found, w, hbound, hfinds, hwork, rfl⟩ := 
    Action.service_eq_ok hp (addArchive_unimpeded now _ _) hservice
  obtain ⟨row, hhash, rfl, hunit⟩ := addArchive_eq_ok hwork
  refine .created hbound hhash rfl ?_ fun e' he => ?_
  · refine (found.storeOf_after e e w).trans ?_
    rw [if_pos rfl, hunit, UnitOfWork.closed_committed]
  · refine (found.storeOf_after e e' w).trans ?_
    rw [if_neg he]
    exact hfinds.others e' he

theorem reconcile_carriedOut {id : Int} {path : Path} {verbose merge : Bool} (hp : p.New)
    (h : perform now (.reconcile (some id) (some path) verbose merge) p = .ok () q) :
    CarriedOut p (.reconcile (some id) (some path) verbose merge) q := by
  rw [perform_reconcile] at h
  obtain ⟨o, imported, himport, htell⟩ := Work.bind_eq_ok.mp h
  obtain rfl := (EStateM.Result.ok.inj htell).2
  obtain ⟨m, settings, e, found, hload, hfinds, hsettings, hbound, hrows, hothers⟩ :=
    importFile_eq_ok hp himport
  exact .reconciled himport ⟨_, _, rfl⟩ hload hfinds hsettings hbound hrows hothers

/-- A command that passes its check is carried out or changes no rows. -/
theorem perform_ends (now : Calendar.Moment) (hp : p.New) (hadmits : Admits p command) :
    (∃ q, perform now command p = .ok () q ∧ CarriedOut p command q) ∨
      ∃ f q, perform now command p = .error f q ∧ p.SameRows q := by
  cases h : perform now command p with
  | ok _ q =>
    refine .inl ⟨q, rfl, ?_⟩
    cases hadmits with
    | create _ => exact create_carriedOut hp h
    | reconcile _ _ => exact reconcile_carriedOut hp h
  | error f q =>
    refine .inr ⟨f, q, rfl, ?_⟩
    cases hadmits with
    | create _ =>
      rw [perform_create] at h
      rcases Work.bind_eq_error.mp h with hservice | ⟨archive, p', -, htell⟩
      · exact Action.service_sameRows hp (addArchive_restores now _ _) hservice
      · simp [tellEach_eq] at htell
    | reconcile _ _ =>
      rw [perform_reconcile] at h
      rcases Work.bind_eq_error.mp h with himport | ⟨o, p', -, htell⟩
      · exact importFile_sameRows hp himport
      · cases htell

/-- How a run ends, with what it leaves. -/
inductive Ends (now : Calendar.Moment) (texts : List String) (p : Application) :
    Ending → Application → Prop
  | helped (reads : parse texts = .error .help) : Ends now texts p (.status 0) p
  | unread (reads : parse texts = .error .usage) : Ends now texts p (.status 2) p
  | refused {command : Command} {fault : ArgumentFault} (reads : parse texts = .ok command)
      (refuses : Refuses p command fault) :
      Ends now texts p (.status 2) { p with notices := p.notices ++ [.refused fault] }
  | broken {command : Command} {f : Failure} (reads : parse texts = .ok command)
      (breaks : Breaks p command f) : Ends now texts p (.broken f) p
  | failed {command : Command} {f : Failure} {q : Application} (reads : parse texts = .ok command)
      (admits : Admits p command) (fails : perform now command p = .error f q)
      (rows : p.SameRows q) :
      Ends now texts p (.status 1) { q with notices := q.notices ++ [.fatal f] }
  | done {command : Command} {q : Application} (reads : parse texts = .ok command)
      (admits : Admits p command) (carriedOut : CarriedOut p command q) :
      Ends now texts p .done q

end CommandLine

end GalleryCatalog
