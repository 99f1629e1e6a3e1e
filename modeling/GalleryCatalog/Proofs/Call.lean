import Mathlib.Tactic.SplitIfs
import GalleryCatalog.Application
import GalleryCatalog.Proofs.PageFiles
import GalleryCatalog.Proofs.ServiceRun

/-!
# Calls

There are six services to call. A call first reads what it needs, a metadata file or the
settings, and then does one job on the database that the application is bound to. What
is read changes neither stores nor files. A store is reachable when a sequence of calls
leaves it, starting without rows, and each of them may return or fail.
-/

set_option autoImplicit false

namespace GalleryCatalog

open Service (Context)

/-- What a service gives back. -/
inductive Returned where
  | archive (a : Archive)
  | sources (o : SourceOutcome)
  | images (o : ImageOutcome)
  | tags (o : TagOutcome)
  | all (o : ArchiveOutcome)
  deriving DecidableEq, Repr

/-- A service with all that it goes by. -/
inductive Job where
  | createArchive (now : Calendar.Moment) (hash title : String)
  | syncSources (c : Context) (archive : Int) (merge verbose : Bool) (sources : List Source)
  | syncImages (c : Context) (archive : Int) (images : List Image)
  | syncTags (c : Context) (archive : Int) (tags : List Tag)
  | reconcile (c : Context) (archive : Int) (merge verbose : Bool) (m : Metadata)

def Job.run : Job → Work Returned
  | .createArchive now hash title => Returned.archive <$> Service.createArchive now hash title
  | .syncSources c id merge verbose sources =>
    Returned.sources <$> Service.syncSources c id merge verbose sources
  | .syncImages c id images => Returned.images <$> Service.syncImages c id images
  | .syncTags c id tags => Returned.tags <$> Service.syncTags c id tags
  | .reconcile c id merge verbose m => Returned.all <$> Service.reconcile c id merge verbose m

/-- What holds for a call besides its arguments. Settings that are not given come from the
environment. -/
structure Terms where
  now : Calendar.Moment
  settings : Option Settings := none
  locked : List Location := []
  answers : Reconcile.TagAnswers := {}

def Terms.effective (t : Terms) : Action Settings :=
  match t.settings with
  | some settings => pure settings
  | none => Action.settings

def Terms.context (t : Terms) : Action Context := do
  let settings ← t.effective
  return { settings, here := (← get).host.here, locked := t.locked, answers := t.answers }

/-- A call of a service. -/
inductive Call where
  | createArchive (hash title : String)
  | syncSources (archive : Int) (merge verbose : Bool) (sources : List Source)
  | syncImages (archive : Int) (images : List Image)
  | syncTags (archive : Int) (tags : List Tag)
  | reconcile (archive : Int) (merge verbose : Bool) (m : Metadata)
  | importFile (archive : Int) (path : Path) (merge verbose : Bool)

/-- Open the database, ask for the settings, and work under them. -/
def Terms.work {α : Type} (t : Terms) (x : Context → Work α) : Action α := do
  let e ← Action.engine
  let c ← t.context
  Action.workOn e (x c)

def Call.perform (t : Terms) : Call → Action Returned
  | .createArchive hash title =>
    Returned.archive <$> Action.service (Service.createArchive t.now hash title)
  | .syncSources id merge verbose sources =>
    Returned.sources <$> t.work fun c => Service.syncSources c id merge verbose sources
  | .syncImages id images => Returned.images <$> t.work fun c => Service.syncImages c id images
  | .syncTags id tags => Returned.tags <$> t.work fun c => Service.syncTags c id tags
  | .reconcile id merge verbose m =>
    Returned.all <$> t.work fun c => Service.reconcile c id merge verbose m
  | .importFile id path merge verbose =>
    Returned.all <$> Action.importFile t.context id path merge verbose

/-- What a call reads, and the job that it does with it. -/
def Call.job (t : Terms) : Call → Action Job
  | .createArchive hash title => pure (.createArchive t.now hash title)
  | .syncSources id merge verbose sources =>
    return .syncSources (← t.context) id merge verbose sources
  | .syncImages id images => return .syncImages (← t.context) id images
  | .syncTags id tags => return .syncTags (← t.context) id tags
  | .reconcile id merge verbose m => return .reconcile (← t.context) id merge verbose m
  | .importFile id path merge verbose => do
    let m ← Action.readMetadata path
    return .reconcile (← t.context) id merge verbose m

namespace Application

/-- The application is bound to a database on which no other unit of work is open. -/
def Serves (p : Application) (e : Engine) : Prop :=
  p.bound = some e ∧ p.pending = none

/-- The application when the database has some errors of its own for the next work. -/
def troubled (p : Application) (troubles : List (Option StoreError)) : Application :=
  { p with troubles }

/-- An application that has only reported something since. -/
def Reports (p q : Application) : Prop :=
  ∃ reported notices, q = { p with reported := reported, notices := notices }

instance : Std.Refl Reports where
  refl p := ⟨p.reported, p.notices, rfl⟩

instance : IsTrans Application Reports where
  trans _ _ _ := by
    rintro ⟨_, _, rfl⟩ ⟨_, _, rfl⟩
    exact ⟨_, _, rfl⟩

variable {p q : Application} {e : Engine}

theorem Serves.troubled (h : p.Serves e) (troubles : List (Option StoreError)) :
    (p.troubled troubles).Serves e :=
  h

theorem Reports.serves (h : p.Reports q) (hp : p.Serves e) : q.Serves e := by
  obtain ⟨_, _, rfl⟩ := h
  exact hp

theorem Reports.storeOf (h : p.Reports q) (e : Engine) : q.storeOf e = p.storeOf e := by
  obtain ⟨_, _, rfl⟩ := h
  rfl

theorem Reports.tree (h : p.Reports q) : q.tree = p.tree := by
  obtain ⟨_, _, rfl⟩ := h
  rfl

theorem Reports.workspace_unit (h : p.Reports q) (e : Engine) :
    (q.workspace e none).unit = .closed (p.storeOf e) := by
  rw [← h.storeOf e]
  rfl

theorem Reports.workspace (h : p.Reports q) (hcalm : p.troubles = []) (e : Engine) :
    q.workspace e none = (q.workspace e none).closedOn (p.storeOf e) := by
  obtain ⟨_, _, rfl⟩ := h
  rw [Workspace.closedOn_of_closed rfl, Workspace.calm_of_calm hcalm]

theorem lookup_putStore (p : Application) (e e' : Engine) (s : Store) :
    (p.putStore e s).stores.lookup e' = if e' = e then some s else p.stores.lookup e' := by
  unfold putStore
  split_ifs with h
  · simp [h]
  · have hne : (e' == e) = false := by simpa using h
    rw [List.lookup_cons, hne]
    dsimp only
    rw [lookup_filter_key fun e' => e' ≠ e, if_pos (by simpa using h)]

theorem storeOf_putStore (p : Application) (e e' : Engine) (s : Store) :
    (p.putStore e s).storeOf e' = if e' = e then s else p.storeOf e' := by
  unfold storeOf
  rw [lookup_putStore]
  split_ifs <;> rfl

theorem storeOf_after (p : Application) (e e' : Engine) (w : Workspace) :
    (p.after e w).storeOf e' = if e' = e then w.unit.committed else p.storeOf e' :=
  p.storeOf_putStore e e' w.unit.committed

theorem Serves.after (h : p.Serves e) (e' : Engine) (w : Workspace) : (p.after e' w).Serves e :=
  h

theorem Serves.engine (h : p.Serves e) : Action.engine p = .ok e p := by
  unfold Action.engine
  rw [Work.get_bind_apply, h.1]
  rfl

theorem Serves.workOn {α : Type} (h : p.Serves e) (x : Work α) :
    Action.workOn e x p = Action.workAlone e x p := by
  unfold Action.workOn
  rw [Work.get_bind_apply, h.2]

end Application

open Application (Reports Serves)

/-! ## Opening the database -/

namespace Application

/-- The same work is pending. -/
def SamePending (p q : Application) : Prop :=
  q.pending = p.pending

instance : Std.Refl SamePending where
  refl _ := rfl

instance : IsTrans Application SamePending where
  trans _ _ _ h₁ h₂ := h₂.trans h₁

end Application

namespace Action

open Application (SamePending)

variable {R : Application → Application → Prop} [Std.Refl R]

theorem ofExcept_keeps {ε α : Type} (cause : ε → Failure) (x : Except ε α) :
    Work.Keeps R (ofExcept cause x) := by
  cases x with
  | ok a => exact Work.pure_keeps a
  | error e => exact Work.throw_keeps _

/-- What making a directory keeps, finding the database keeps. -/
theorem storageUri_keeps [IsTrans Application R] (hmake : ∀ l, Work.Keeps R (makeDataDir l))
    (storage : Storage) : Work.Keeps R (storageUri storage) := by
  apply Work.bind_keeps (R := R) Work.get_keeps
  intro p
  apply Work.bind_keeps (R := R) (ofExcept_keeps _ _)
  intro l
  apply Work.bind_keeps (hmake l)
  intro _
  apply Work.bind_keeps (R := R) (ofExcept_keeps _ _)
  intro path
  exact Work.pure_keeps _

theorem databaseUri_keeps [IsTrans Application R] (hmake : ∀ l, Work.Keeps R (makeDataDir l))
    (storage : Option Storage) : Work.Keeps R (databaseUri storage) := by
  apply Work.bind_keeps (R := R) Work.get_keeps
  intro p
  dsimp only
  split
  · exact Work.pure_keeps _
  · exact storageUri_keeps hmake _
  · apply Work.bind_keeps (R := R) (ofExcept_keeps _ _)
    exact storageUri_keeps hmake

theorem makeDataDir_pending (l : Location) : Work.Keeps SamePending (makeDataDir l) := by
  intro p
  unfold makeDataDir Work.left
  dsimp only
  cases FileTree.ensureFolders l p.tree <;> exact rfl

theorem openAddress_pending (address : Address) :
    Work.Keeps SamePending (openAddress address) := by
  have hcreate (l : Location) (use : FileUse) : Work.Keeps SamePending (createFile l use) := by
    intro p
    unfold createFile Work.left
    dsimp only
    cases Database.create l use p.tree <;> exact rfl
  cases address with
  | memory => exact fun _ => rfl
  | file l use =>
    apply Work.bind_keeps (R := SamePending) Work.get_keeps
    intro p
    dsimp only
    split_ifs
    · exact Work.pure_keeps _
    · apply Work.bind_keeps (hcreate l use)
      intro _
      exact Work.pure_keeps _

theorem bind_eq_ok {p q : Application} {e : Engine} {force : Bool}
    (h : Action.bind e force p = .ok () q) : q = { p with bound := some e } := by
  unfold Action.bind at h
  rw [Work.get_bind_apply] at h
  split_ifs at h
  · simp at h
  · exact (EStateM.Result.ok.inj h).2.symm

/-- With no work pending, the application serves the database that it opens. -/
theorem engine_serves {p q : Application} {e : Engine} (hp : p.pending = none)
    (h : engine p = .ok e q) : q.Serves e := by
  unfold engine at h
  rw [Work.get_bind_apply] at h
  cases hbound : p.bound with
  | some e' =>
    rw [hbound] at h
    obtain ⟨rfl, rfl⟩ := Work.pure_eq_ok.mp h
    exact ⟨hbound, hp⟩
  | none =>
    rw [hbound] at h
    obtain ⟨uri, p₁, huri, h⟩ := Work.bind_eq_ok.mp h
    rw [Work.get_bind_apply] at h
    obtain ⟨address, p₂, haddress, h⟩ := Work.bind_eq_ok.mp h
    obtain ⟨e', p₃, hopen, h⟩ := Work.bind_eq_ok.mp h
    obtain ⟨_, p₄, hbind, h⟩ := Work.bind_eq_ok.mp h
    obtain ⟨rfl, rfl⟩ := Work.pure_eq_ok.mp h
    obtain rfl := bind_eq_ok hbind
    have h₁ := databaseUri_keeps makeDataDir_pending none p
    have h₂ := ofExcept_keeps (R := SamePending) Failure.database
      (Address.ofUri p₁.host.here uri) p₁
    have h₃ := openAddress_pending address p₂
    rw [Work.left_of_ok huri] at h₁
    rw [Work.left_of_ok haddress] at h₂
    rw [Work.left_of_ok hopen] at h₃
    exact ⟨rfl, h₃.trans (h₂.trans (h₁.trans hp))⟩

end Action

/-! ## What a call reads -/

section Asking

variable {R : Application → Application → Prop} [Std.Refl R] [IsTrans Application R]

theorem settings_keeps : Work.Keeps R Action.settings := by
  apply Work.bind_keeps (R := R) Work.get_keeps
  intro p
  exact Action.ofExcept_keeps _ _

/-- What asks for something and then looks at the application changes no more than the asking. -/
theorem asking_keeps {α β : Type} {x : Action α} (hx : Work.Keeps R x)
    (k : α → Application → β) : Work.Keeps R (do return k (← x) (← get)) := by
  apply Work.bind_keeps hx
  intro a
  apply Work.bind_keeps (R := R) Work.get_keeps
  intro p
  exact Work.pure_keeps _

theorem Terms.context_keeps (t : Terms) : Work.Keeps R t.context := by
  have heffective : Work.Keeps R t.effective := by
    unfold Terms.effective
    split
    · exact Work.pure_keeps _
    · exact settings_keeps
  exact asking_keeps heffective fun settings p =>
    ({ settings, here := p.host.here, locked := t.locked, answers := t.answers } : Context)

end Asking

theorem context_reports : Work.Keeps Reports Action.context :=
  asking_keeps settings_keeps fun settings p =>
    ({ settings, here := p.host.here } : Context)

theorem Terms.context_reports (t : Terms) : Work.Keeps Reports t.context :=
  t.context_keeps

theorem readMetadata_reports (path : Path) : Work.Keeps Reports (Action.readMetadata path) := by
  intro p
  unfold Action.readMetadata Work.left
  dsimp only
  cases (Payload.load p.reported p.tree p.host.here path).outcome <;> exact ⟨_, _, rfl⟩

theorem Call.job_reports (t : Terms) (c : Call) : Work.Keeps Reports (c.job t) := by
  have hcontext {α : Type} (job : Context → α) :
      Work.Keeps Reports (do return job (← t.context)) :=
    Work.bind_keeps t.context_reports fun c => Work.pure_keeps (job c)
  cases c with
  | createArchive hash title => exact Work.pure_keeps _
  | importFile id path merge verbose =>
    exact Work.bind_keeps (readMetadata_reports path) fun m => hcontext _
  | _ => exact hcontext _

/-! ## What a call does -/

section Perform

variable {p : Application} {e : Engine} (hp : p.Serves e)

theorem workAlone_map {α β : Type} (k : α → β) (e : Engine) (x : Work α) :
    Action.workAlone e (k <$> x) = k <$> Action.workAlone e x := by
  funext p
  simp only [Action.workAlone, Functor.map, EStateM.map]
  cases x (p.workspace e none) <;> rfl

include hp in
theorem Terms.work_serves {α : Type} (t : Terms) (x : Context → Work α) :
    t.work x p = (t.context >>= fun c => Action.workAlone e (x c)) p := by
  unfold Terms.work
  rw [Work.bind_of_ok hp.engine]
  have hreads := t.context_reports p
  cases hcontext : t.context p with
  | ok c q =>
    rw [Work.left_of_ok hcontext] at hreads
    rw [Work.bind_of_ok hcontext, Work.bind_of_ok hcontext, (hreads.serves hp).workOn]
  | error f q => rw [Work.bind_of_error hcontext, Work.bind_of_error hcontext]

include hp in
theorem Terms.map_work_serves {α : Type} (t : Terms) (k : α → Returned) (x : Context → Work α) :
    (k <$> t.work x) p = (t.context >>= fun c => Action.workAlone e (k <$> x c)) p := by
  have hmap : (k <$> t.work x) p =
      (k <$> (t.context >>= fun c => Action.workAlone e (x c))) p := by
    simp only [Functor.map, EStateM.map, t.work_serves hp x]
  rw [hmap, map_bind]
  simp only [workAlone_map]

include hp in
/-- A call reads, and then does its job on the database that the application is bound to. -/
theorem Call.perform_job (t : Terms) (c : Call) :
    c.perform t p = (c.job t >>= fun job => Action.workAlone e job.run) p := by
  cases c with
  | createArchive hash title =>
    have hservice : Action.service (Service.createArchive t.now hash title) p =
        Action.workAlone e (Service.createArchive t.now hash title) p := by
      unfold Action.service
      rw [Work.bind_of_ok hp.engine, hp.workOn]
    simp only [perform, job, pure_bind, Job.run, workAlone_map]
    simp only [Functor.map, EStateM.map, hservice]
  | importFile id path merge verbose =>
    have himport : Action.importFile t.context id path merge verbose =
        (Action.readMetadata path >>= fun m =>
          t.work fun c => Service.reconcile c id merge verbose m) := rfl
    have hreads := readMetadata_reports path p
    simp only [perform, job, himport, map_bind, bind_assoc, pure_bind]
    cases hread : Action.readMetadata path p with
    | ok m q =>
      rw [Work.left_of_ok hread] at hreads
      rw [Work.bind_of_ok hread, Work.bind_of_ok hread]
      exact t.map_work_serves (hreads.serves hp) Returned.all _
    | error f q => rw [Work.bind_of_error hread, Work.bind_of_error hread]
  | _ =>
    simp only [job, bind_assoc, pure_bind]
    exact t.map_work_serves hp _ _

theorem workAlone_eq_ok {α : Type} {e : Engine} {x : Work α} {p q : Application} {a : α}
    (h : Action.workAlone e x p = .ok a q) :
    ∃ w, x (p.workspace e none) = .ok a w ∧ q = p.after e w := by
  unfold Action.workAlone at h
  cases hx : x (p.workspace e none) with
  | ok b w =>
    rw [hx] at h
    obtain ⟨rfl, rfl⟩ := EStateM.Result.ok.inj h
    exact ⟨w, rfl, rfl⟩
  | error f w =>
    rw [hx] at h
    cases h

theorem workAlone_eq_error {α : Type} {e : Engine} {x : Work α} {p q : Application}
    {f : Failure} (h : Action.workAlone e x p = .error f q) :
    ∃ w, x (p.workspace e none) = .error f w ∧ q = p.after e w := by
  unfold Action.workAlone at h
  cases hx : x (p.workspace e none) with
  | ok b w =>
    rw [hx] at h
    cases h
  | error g w =>
    rw [hx] at h
    obtain ⟨rfl, rfl⟩ := EStateM.Result.error.inj h
    exact ⟨w, rfl, rfl⟩

/-- A job that returns in spite of errors of the database returns the same without them. -/
theorem Job.run_unimpeded (job : Job) : Work.Unimpeded job.run := by
  have hmap {α : Type} {x : Work α} (k : α → Returned) (hx : Work.Unimpeded x) :
      Work.Unimpeded (k <$> x) := by
    rw [map_eq_pure_bind]
    exact Work.bind_unimpeded hx fun a => Work.pure_unimpeded (k a)
  cases job with
  | createArchive now hash title => exact hmap _ (Service.createArchive_unimpeded now hash title)
  | syncSources c id merge verbose sources =>
    exact hmap _ (Service.forArchive_unimpeded fun _ =>
      Reconcile.sources_compositional Work.unimpeded_compositional _ _ _ _ _)
  | syncImages c id images =>
    exact hmap _ (Service.forArchive_unimpeded fun _ =>
      Reconcile.images_compositional Work.unimpeded_compositional Work.onFiles_unimpeded _ _ _ _ _)
  | syncTags c id tags =>
    exact hmap _ (Service.forArchive_unimpeded fun _ =>
      Reconcile.tags_compositional Work.unimpeded_compositional _ _ _ _)
  | reconcile c id merge verbose m =>
    exact hmap _ (Service.reconcile_unimpeded c id merge verbose m)

include hp in
/-- A call that returns has read what it needs and done its job, which it would have done in the
same way if the database had given no errors. -/
theorem Call.perform_eq_ok {t : Terms} {c : Call} {q : Application} {r : Returned}
    (h : c.perform t p = .ok r q) :
    ∃ job p' w, c.job t p = .ok job p' ∧ p.Reports p' ∧
      job.run ((p'.workspace e none).closedOn (p.storeOf e)) = .ok r w ∧
      q = p'.after e w := by
  rw [c.perform_job hp t] at h
  obtain ⟨job, p', hjob, hwork⟩ := Work.bind_eq_ok.mp h
  obtain ⟨w, hrun, rfl⟩ := workAlone_eq_ok hwork
  have hreads := c.job_reports t p
  rw [Work.left_of_ok hjob] at hreads
  have hcalm := job.run_unimpeded _ _ _ hrun
  rw [← Workspace.closedOn_of_closed (hreads.workspace_unit e)] at hcalm
  exact ⟨job, p', w.calm, hjob, hreads, hcalm, rfl⟩

include hp in
/-- A call fails while it reads, or its job does. -/
theorem Call.perform_eq_error {t : Terms} {c : Call} {q : Application} {f : Failure}
    (h : c.perform t p = .error f q) :
    p.Reports q ∨ ∃ job p' w, c.job t p = .ok job p' ∧ p.Reports p' ∧
      job.run (p'.workspace e none) = .error f w ∧ q = p'.after e w := by
  rw [c.perform_job hp t] at h
  have hreads := c.job_reports t p
  rcases Work.bind_eq_error.mp h with hjob | ⟨job, p', hjob, hwork⟩
  · rw [Work.left_of_error hjob] at hreads
    exact Or.inl hreads
  · obtain ⟨w, hrun, rfl⟩ := workAlone_eq_error hwork
    rw [Work.left_of_ok hjob] at hreads
    exact Or.inr ⟨job, p', w, hjob, hreads, hrun, rfl⟩

section Job

variable {t : Terms} {c : Call} {job : Job} {p' : Application} {w : Workspace}
  (hjob : c.job t p = .ok job p')
include hp hjob

theorem Call.job_done :
    p.Reports p' ∧ c.perform t p = Action.workAlone e job.run p' := by
  have hreads := c.job_reports t p
  rw [Work.left_of_ok hjob] at hreads
  exact ⟨hreads, by rw [c.perform_job hp t, Work.bind_of_ok hjob]⟩

/-- A call that has read what it needs returns when its job does. -/
theorem Call.perform_of_ok (hcalm : p.troubles = []) {r : Returned}
    (h : job.run ((p'.workspace e none).closedOn (p.storeOf e)) = .ok r w) :
    c.perform t p = .ok r (p'.after e w) := by
  obtain ⟨hreads, hperform⟩ := job_done hp hjob
  rw [hperform, Action.workAlone, hreads.workspace hcalm e, h]

theorem Call.perform_of_error (hcalm : p.troubles = []) {f : Failure}
    (h : job.run ((p'.workspace e none).closedOn (p.storeOf e)) = .error f w) :
    c.perform t p = .error f (p'.after e w) := by
  obtain ⟨hreads, hperform⟩ := job_done hp hjob
  rw [hperform, Action.workAlone, hreads.workspace hcalm e, h]

end Job

theorem workAlone_ends {α : Type} (e : Engine) (x : Work α) (p : Application) :
    Work.left (Action.workAlone e x) p = p.after e (Work.left x (p.workspace e none)) ∧
      Work.returns (Action.workAlone e x) p = Work.returns x (p.workspace e none) := by
  cases h : x (p.workspace e none) <;> simp [Action.workAlone, Work.left, Work.returns, h]

include hp in
/-- Whether or not it returns, a call stops while it reads, or ends as its job does. -/
theorem Call.perform_ends (t : Terms) (c : Call) :
    (∃ f q, c.job t p = .error f q ∧ p.Reports q ∧ Work.left (c.perform t) p = q ∧
        Work.returns (c.perform t) p = false) ∨
      ∃ job p', c.job t p = .ok job p' ∧ p.Reports p' ∧
        Work.left (c.perform t) p = p'.after e (Work.left job.run (p'.workspace e none)) ∧
          Work.returns (c.perform t) p = Work.returns job.run (p'.workspace e none) := by
  have hperform := c.perform_job hp t
  have hreads := c.job_reports t p
  cases hjob : c.job t p with
  | error f q =>
    rw [Work.bind_of_error hjob] at hperform
    rw [Work.left_of_error hjob] at hreads
    exact Or.inl ⟨f, q, rfl, hreads, Work.left_of_error hperform, by rw [Work.returns, hperform]⟩
  | ok job p' =>
    rw [Work.bind_of_ok hjob] at hperform
    rw [Work.left_of_ok hjob] at hreads
    obtain ⟨hleft, hreturns⟩ := workAlone_ends e job.run p'
    refine Or.inr ⟨job, p', rfl, hreads, ?_, ?_⟩
    · rw [Work.left, hperform]
      exact hleft
    · rw [Work.returns, hperform]
      exact hreturns

end Perform

/-! ## Jobs on a store -/

namespace Job

variable {job : Job} {w u : Workspace} {s : Store}

/-- A job that fails leaves the store as it was, whatever errors the database has given. -/
theorem run_error {f : Failure} (hw : w.unit = .closed s) (h : job.run w = .error f u) :
    u.unit = .closed s := by
  cases job with
  | createArchive now hash title =>
    exact (Service.createArchive_eq_error hw (Work.map_eq_error.mp h)).1
  | syncSources c id merge verbose sources =>
    exact (Service.forArchive_eq_error (fun _ => Reconcile.sources_within _ _ _ _ _) hw
      (Work.map_eq_error.mp h)).1
  | syncImages c id images =>
    exact (Service.forArchive_eq_error (fun _ => Reconcile.images_within _ _ _ _ _) hw
      (Work.map_eq_error.mp h)).1
  | syncTags c id tags =>
    exact (Service.forArchive_eq_error (fun _ => Reconcile.tags_within _ _ _ _) hw
      (Work.map_eq_error.mp h)).1
  | reconcile c id merge verbose m =>
    exact (Service.reconcile_eq_error hw (Work.map_eq_error.mp h)).1

/-- A job that returns leaves a sound store sound. -/
theorem run_sound (hs : s.Sound) {r : Returned} (h : job.run (w.closedOn s) = .ok r u) :
    u.unit.committed.Sound := by
  cases job with
  | createArchive now hash title =>
    obtain ⟨a, hrun, -⟩ := Work.map_eq_ok.mp h
    obtain ⟨row, hunit, -, hids, hhashes⟩ := Service.createArchive_eq_ok hrun
    rw [hunit]
    exact hs.withArchive hids hhashes
  | syncSources c id merge verbose sources =>
    obtain ⟨o, hservice, -⟩ := Work.map_eq_ok.mp h
    obtain ⟨ha, hunit⟩ := Service.syncSources_eq_ok hservice
    rw [hunit]
    exact hs.afterSources ha _ _ _
  | syncImages c id images =>
    obtain ⟨o, hservice, -⟩ := Work.map_eq_ok.mp h
    obtain ⟨ha, hunit⟩ := Service.syncImages_eq_ok hservice
    rw [hunit]
    exact hs.afterImages ha _
  | syncTags c id tags =>
    obtain ⟨o, hservice, -⟩ := Work.map_eq_ok.mp h
    obtain ⟨ha, hunit, honce⟩ := Service.syncTags_eq_ok hservice
    rw [hunit] at honce ⊢
    exact hs.afterTags ha _ (fun t ht => normalizeTags_space_ne ht) (honce hs.links_once)
  | reconcile c id merge verbose m =>
    obtain ⟨o, hservice, -⟩ := Work.map_eq_ok.mp h
    obtain ⟨-, row, hrow, w', v, -, hdone, hunit, -⟩ := Service.reconcile_eq_ok hservice
    rw [hunit]
    exact hs.reconciled (Store.row?_hasArchive hrow) (hdone.links_once hs.links_once)

end Job

end GalleryCatalog
