import GalleryCatalog.Proofs.Agreement

/-!
# Atomicity

A call that fails, at whatever step, leaves every store as it was, and all later jobs end
as if it had not been made. The files are as they were, too, unless the pass over images
had begun. It may have removed files of pages whose file name was about to change, and
those do not come back.
-/

set_option autoImplicit false

namespace GalleryCatalog

open Service (Context)
open Work (Keeps)

/-- A page of an archive is stored with another file name than the incoming one. -/
def Store.Outdated (s : Store) (archive : Int) (incoming : List Image) (page : Int) : Prop :=
  ∃ r ∈ s.images, r.archive = archive ∧ r.page = page ∧
    ∃ i, Reconcile.LastFor incoming i ∧ i.page = page ∧ i.filename ≠ r.filename

namespace Reconcile

/-! ## Files of replaced pages -/

theorem mem_replacedPages {s : Store} {id : Int} {incoming : List Image} {page : Int} :
    page ∈ (replacedImages (winners incoming) (s.imagesOf id)).map Image.page ↔
      s.Outdated id incoming page := by
  simp only [replacedImages, List.mem_map, List.mem_filter, List.any_eq_true, decide_eq_true_eq,
    Store.mem_imagesOf, mem_winners, winner?_eq_some, and_true]
  constructor
  · rintro ⟨c, ⟨⟨r, hr, ha, rfl⟩, i, hlast, hpage, hname⟩, rfl⟩
    exact ⟨r, hr, ha, rfl, i, hlast, hpage, hname⟩
  · rintro ⟨r, hr, ha, rfl, i, hlast, hpage, hname⟩
    exact ⟨r.image, ⟨⟨r, hr, ha, rfl⟩, i, hlast, hpage, hname⟩, rfl⟩

theorem removedFor_losesOnly (o : Options) (dir : PageFile.Directory) (id : Int) (hash : String)
    (images : List Image) (s : Store) (t : FileTree) :
    t.LosesOnly (removedFor o (some dir) id hash images s t).2
      (dir.IsPageFile t hash (s.Outdated id images)) := by
  unfold removedFor removal
  dsimp only
  split_ifs
  · apply (dir.removePages_losesOnly t hash _).mono
    rintro l ⟨place, n, hplace, hbelow, hne, hname, hn⟩
    exact ⟨place, n, hplace, hbelow, hne, hname, mem_replacedPages.mp hn⟩
  · exact .refl t _

/-! ## How far a reconciliation has come -/

/-- The metadata without its images. -/
def withoutImages (m : Metadata) : Metadata :=
  { m with images := none }

/-- The statements of a pass over images do not touch the files. -/
theorem storing_tree (id : Int) (images : List Image) (pages : List Int) (o : ImageOutcome) :
    Keeps Work.SameTree (do
      let _ ← Work.access (Repository.upsertImages id images)
      Work.access (Repository.deletePages id pages)
      return o) := by
  apply Work.bind_keeps (Work.access_tree _)
  intro _
  apply Work.bind_keeps (Work.access_tree _)
  intro _
  exact Work.pure_keeps o

section Left

variable {id : Int} (hid : fits id = true) (hash : String) (o : Options)
  (dir : PageFile.Directory) {w : Workspace} {s : Store}
  (hw : w.unit.session = some (.live s))
include hid hw

/-- Whether or not it fails, a pass over images removes files of pages that are about to get
another file name, or none. -/
theorem left_images_losesOnly (images : List Image) :
    w.tree.LosesOnly
      (Work.left (Reconcile.images id hash (some dir) o.removeOnUpdate images) w).tree
      (dir.IsPageFile w.tree hash (s.Outdated id images)) := by
  have hlook := Work.access_tree (Repository.images id) w
  unfold Reconcile.images
  cases hcurrent : Work.access (Repository.images id) w with
  | error f u =>
    rw [Work.left_of_error hcurrent] at hlook
    rw [Work.left_of_error (Work.bind_of_error hcurrent), hlook]
    exact .refl _ _
  | ok current u =>
    rw [Work.left_of_ok hcurrent] at hlook
    have hcalm := (Work.ofDatabase_unimpeded _).on hw hcurrent
    rw [← Work.access, listImages_on hid] at hcalm
    obtain ⟨rfl, -⟩ := EStateM.Result.ok.inj hcalm
    rw [Work.left_bind hcurrent, Work.left_bind (removeReplaced_run ..), hlook]
    rw [storing_tree]
    exact removedFor_losesOnly o dir id hash images s w.tree

theorem sourcesPass_session {m : Metadata} {part : Option SourceOutcome} {u : Workspace}
    (h : optionally (sources id o.sourceRules o.mergeSources o.verbose) m.sources w = .ok part u) :
    u.unit.session = some (.live (sourced o id m s)) := by
  have hcalm := (Work.unimpeded_compositional.optionally
    (sources_compositional Work.unimpeded_compositional id _ _ _) m.sources).on hw h
  obtain ⟨v, -, hdone⟩ := sources_done hid o m w s
  rw [← Workspace.calm_unit, ← (EStateM.Result.ok.inj (hdone.symm.trans hcalm)).2]
  rfl

omit hid hw in
theorem tagsPass_session {answers : TagAnswers} {m : Metadata} {part : Option TagOutcome}
    {u v : Workspace} (hu : u.unit.session = some (.live (sourced o id m s)))
    (h : optionally (tags answers id o.tagRules) m.tags u = .ok part v) :
    v.unit.session = some (.live (tagged answers o id m s)) := by
  have hcalm := (Work.unimpeded_compositional.optionally
    (tags_compositional Work.unimpeded_compositional answers id _) m.tags).on hu h
  rw [← Workspace.calm_unit, (tags_done hcalm).1]
  rfl

omit hw in
/-- Sources and tags change no page, so it is the pages of the beginning that are outdated. -/
theorem left_imagesPass_losesOnly {answers : TagAnswers} {m : Metadata} {images : List Image}
    {v : Workspace} (hv : v.unit.session = some (.live (tagged answers o id m s)))
    (hm : m.images = some images) :
    v.tree.LosesOnly (Work.left (optionally
        (Reconcile.images id hash (some dir) o.removeOnUpdate) m.images) v).tree
      (dir.IsPageFile v.tree hash (s.Outdated id images)) := by
  have hpass : Work.left (optionally (Reconcile.images id hash (some dir) o.removeOnUpdate)
      (some images)) v =
      Work.left (Reconcile.images id hash (some dir) o.removeOnUpdate images) v :=
    Work.left_bind_pure _ _ _
  have hloses := left_images_losesOnly hid hash o dir hv images
  have houtdated : (tagged answers o id m s).Outdated id images = s.Outdated id images := by
    unfold Store.Outdated
    rw [(tagged_rest answers o id m s).2.2]
  rw [houtdated] at hloses
  rwa [hm, hpass]

/-- Whether or not it fails, a reconciliation leaves the files as they are unless all that it
does before the images has been done. -/
theorem left_archive_tree (answers : TagAnswers) (m : Metadata) :
    (Work.left (archive answers o (some dir) id hash m) w).tree = w.tree ∨
      ∃ images, m.images = some images ∧
        (∃ r v, archive answers o (some dir) id hash (withoutImages m) w = .ok r v) ∧
        w.tree.LosesOnly (Work.left (archive answers o (some dir) id hash m) w).tree
          (dir.IsPageFile w.tree hash (s.Outdated id images)) := by
  have htree := Work.tree_compositional.optionally
    (sources_tree id o.sourceRules o.mergeSources o.verbose) m.sources w
  cases hsources : optionally (sources id o.sourceRules o.mergeSources o.verbose) m.sources w with
  | error f u =>
    rw [Work.left_of_error hsources] at htree
    exact .inl (by rwa [archive, Work.left_of_error (Work.bind_of_error hsources)])
  | ok sourcePart u =>
    rw [Work.left_of_ok hsources] at htree
    have htree' := Work.tree_compositional.optionally (tags_tree answers id o.tagRules) m.tags u
    cases htags : optionally (tags answers id o.tagRules) m.tags u with
    | error f v =>
      rw [Work.left_of_error htags] at htree'
      have hrun : archive answers o (some dir) id hash m w = .error f v := by
        rw [archive, Work.bind_of_ok hsources, Work.bind_of_error htags]
      exact .inl (by rw [Work.left_of_error hrun, htree', htree])
    | ok tagPart v =>
      rw [Work.left_of_ok htags] at htree'
      have hv := tagsPass_session o (sourcesPass_session hid o hw hsources) htags
      have hleft : Work.left (archive answers o (some dir) id hash m) w =
          Work.left (optionally (Reconcile.images id hash (some dir) o.removeOnUpdate) m.images)
            v := by
        rw [archive, Work.left_bind hsources, Work.left_bind htags, Work.left_bind_pure]
      rw [hleft, ← htree, ← htree']
      cases hm : m.images with
      | none => exact .inl rfl
      | some images =>
        rw [← hm]
        refine .inr ⟨images, hm, ?_, left_imagesPass_losesOnly hid hash o dir hv hm⟩
        rw [archive, withoutImages, Work.bind_of_ok hsources, Work.bind_of_ok htags]
        exact ⟨_, _, rfl⟩

end Left

end Reconcile

/-- A job on a workspace has come as far as the images of an archive. It has found the row of
the archive, and a reconciliation has done all that comes before the images. -/
inductive Job.ReachesImages (w : Workspace) : Job → Context → ArchiveRow → List Image → Prop
  | sync {c : Context} {id : Int} {images : List Image} {row : ArchiveRow} {v : Workspace}
      (hrow : Work.access (Repository.archive? id) w.entered = .ok (some row) v) :
      ReachesImages w (.syncImages c id images) c row images
  | reconcile {c : Context} {id : Int} {merge verbose : Bool} {m : Metadata}
      {images : List Image} {row : ArchiveRow} {r : ArchiveOutcome} {v u : Workspace}
      (hm : m.images = some images)
      (hrow : Work.access (Repository.archive? id) (w.told (.reconciling id m)).entered =
        .ok (some row) v)
      (h : Reconcile.archive c.answers (c.options merge verbose) (some c.files) row.id row.hash
        (Reconcile.withoutImages m) v = .ok r u) :
      ReachesImages w (.reconcile c id merge verbose m) c row images

namespace Service

/-- An archive that is looked up first in a unit of work is one that was committed. -/
theorem findArchive_entered {id : Int} {found : Option ArchiveRow} {w v : Workspace} {s : Store}
    (hw : w.unit = .closed s) (h : Work.access (Repository.archive? id) w.entered = .ok found v) :
    fits id = true ∧ found = s.row? id ∧ v.unit.session = some (.live s) ∧ v.tree = w.tree := by
  have hcalm := Work.ofDatabase_unimpeded _ _ _ _ h
  rw [← Work.access, Workspace.entered_of_closed hw, findArchive_on] at hcalm
  split_ifs at hcalm with hid
  obtain ⟨rfl, hv⟩ := EStateM.Result.ok.inj hcalm
  rw [← v.calm_unit, ← v.calm_tree, ← hv]
  exact ⟨hid, rfl, rfl, rfl⟩

/-- Work on the row of an archive leaves the files as they are, or the row has been found and
the files are left as they are by what follows. -/
theorem left_onRow_tree {α : Type} (id : Int) (work : ArchiveRow → Work α) (w : Workspace) :
    (Work.left (onRow id work) w).tree = w.tree ∨
      ∃ row v, Work.access (Repository.archive? id) w = .ok (some row) v ∧
        (Work.left (onRow id work) w).tree = (Work.left (work row) v).tree := by
  have htree := Work.access_tree (Repository.archive? id) w
  unfold onRow
  cases hfind : Work.access (Repository.archive? id) w with
  | error f v =>
    rw [Work.left_of_error hfind] at htree
    exact .inl (by rwa [Work.left_of_error (Work.bind_of_error hfind)])
  | ok found v =>
    rw [Work.left_of_ok hfind] at htree
    rw [Work.left_bind hfind]
    cases found with
    | none => exact .inl htree
    | some row => exact .inr ⟨row, v, rfl, rfl⟩

end Service

namespace Job

variable {job : Job} {w u : Workspace} {s : Store} {f : Failure}

/-- A job that fails leaves the files as they are, or it has come as far as the images. -/
theorem run_error_tree (hw : w.unit = .closed s) (h : job.run w = .error f u) :
    u.tree = w.tree ∨ ∃ c row images, job.ReachesImages w c row images ∧
      w.tree.LosesOnly u.tree (c.files.IsPageFile w.tree row.hash (s.Outdated row.id images)) := by
  cases job with
  | createArchive now hash title =>
    exact .inl (Service.createArchive_eq_error hw (Work.map_eq_error.mp h)).2
  | syncSources c id merge verbose sources =>
    have htree := (Service.forArchive_eq_error (fun _ => Reconcile.sources_within _ _ _ _ _) hw
      (Work.map_eq_error.mp h)).2
    exact .inl (htree.trans (Service.onRow_keeps Work.access_tree
      (fun _ => Reconcile.sources_tree _ _ _ _ _) _))
  | syncTags c id tags =>
    have htree := (Service.forArchive_eq_error (fun _ => Reconcile.tags_within _ _ _ _) hw
      (Work.map_eq_error.mp h)).2
    exact .inl (htree.trans (Service.onRow_keeps Work.access_tree
      (fun _ => Reconcile.tags_tree _ _ _ _) _))
  | syncImages c id images =>
    have htree := (Service.forArchive_eq_error (fun _ => Reconcile.images_within _ _ _ _ _) hw
      (Work.map_eq_error.mp h)).2
    rw [htree]
    rcases Service.left_onRow_tree id _ w.entered with hsame | ⟨row, v, hfind, hleft⟩
    · exact .inl hsame
    · obtain ⟨hid, hrow, hv, hvtree⟩ := Service.findArchive_entered hw hfind
      obtain ⟨-, rfl⟩ := Store.row?_mem hrow.symm
      refine .inr ⟨c, row, images, .sync hfind, ?_⟩
      rw [hleft, ← hvtree]
      exact Reconcile.left_images_losesOnly hid row.hash (c.options false false) c.files hv images
  | reconcile c id merge verbose m =>
    have htree := (Service.reconcile_eq_error hw (Work.map_eq_error.mp h)).2
    rw [htree]
    rcases Service.left_onRow_tree id _ (w.told (.reconciling id m)).entered with
      hsame | ⟨row, v, hfind, hleft⟩
    · exact .inl hsame
    · obtain ⟨hid, hrow, hv, hvtree⟩ :=
        Service.findArchive_entered (w := w.told (.reconciling id m)) hw hfind
      obtain ⟨-, rfl⟩ := Store.row?_mem hrow.symm
      rw [hleft, ← w.told_tree (.reconciling row.id m), ← hvtree]
      rcases Reconcile.left_archive_tree hid row.hash (c.options merge verbose) c.files hv
          c.answers m with hsame | ⟨images, hm, ⟨r, v', hbefore⟩, hloses⟩
      · exact .inl hsame
      · exact .inr ⟨c, row, images, .reconcile hm hfind hbefore, hloses⟩

end Job

/-! ## Later jobs -/

namespace Application

variable {p q : Application} {e : Engine}

/-- Do jobs one after another on a database, which gives errors of its own to each of them,
whether or not they fail, and take what they give back of rows. -/
def serve (e : Engine) :
    List (Job × List (Option StoreError)) → Application →
      List (Except Failure Returned) × Application
  | [], p => ([], p)
  | (job, troubles) :: jobs, p =>
    match Action.workOn e job.run (p.troubled troubles) with
    | .ok r p => ((.ok r.rows :: (serve e jobs p).1), (serve e jobs p).2)
    | .error f p => ((.error f :: (serve e jobs p).1), (serve e jobs p).2)

theorem after_storeOf_eq (h : ∀ e', q.storeOf e' = p.storeOf e') {w v : Workspace}
    (hunit : w.unit = v.unit) (e' : Engine) :
    (q.after e w).storeOf e' = (p.after e v).storeOf e' := by
  rw [storeOf_after, storeOf_after, hunit, h]

/-- Applications with the same stores serve the same jobs alike. -/
theorem serve_alike (hp : p.Serves e) (hq : q.Serves e) (h : ∀ e', q.storeOf e' = p.storeOf e')
    (jobs : List (Job × List (Option StoreError))) :
    (serve e jobs q).1 = (serve e jobs p).1 ∧
      ∀ e', (serve e jobs q).2.storeOf e' = (serve e jobs p).2.storeOf e' := by
  induction jobs generalizing p q with
  | nil => exact ⟨rfl, h⟩
  | cons first jobs ih =>
    obtain ⟨job, troubles⟩ := first
    replace hp := hp.troubled troubles
    replace hq := hq.troubled troubles
    replace h : ∀ e', (q.troubled troubles).storeOf e' = (p.troubled troubles).storeOf e' := h
    have hunit : Work.SameUnit ((q.troubled troubles).workspace e none)
        ((p.troubled troubles).workspace e none) := ⟨congrArg UnitOfWork.closed (h e), rfl⟩
    have hends := job.run_agrees _ _ hunit
    unfold serve
    rw [hp.workOn, hq.workOn]
    unfold Action.workAlone
    cases hw : job.run ((q.troubled troubles).workspace e none) with
    | ok r w =>
      cases hv : job.run ((p.troubled troubles).workspace e none) with
      | ok r' v =>
        rw [hw, hv] at hends
        obtain ⟨hrest, hstores⟩ :=
          ih (hp.after e v) (hq.after e w) (after_storeOf_eq h hends.2.1)
        exact ⟨by simp only [hends.1, hrest], hstores⟩
      | error f v => rw [hw, hv] at hends; exact hends.elim
    | error f w =>
      cases hv : job.run ((p.troubled troubles).workspace e none) with
      | ok r v => rw [hw, hv] at hends; exact hends.elim
      | error f' v =>
        rw [hw, hv] at hends
        obtain ⟨hrest, hstores⟩ :=
          ih (hp.after e v) (hq.after e w) (after_storeOf_eq h hends.2.1)
        exact ⟨by simp only [hends.1, hrest], hstores⟩

end Application

open Application (Serves serve)

/-- A call that fails leaves every store as it was, whatever errors the database gives, so that
later jobs give the same results and leave the same stores as if it had not been made. It leaves
the files as they were, too, unless its job had come as far as the images. Then only files of
the archive may be gone whose page was stored with another file name than the incoming one. -/
theorem Call.failure_undone {p q : Application} {e : Engine} {t : Terms} {c : Call} {f : Failure}
    (hp : p.Serves e) (h : c.perform t p = .error f q) :
    q.Serves e ∧ (∀ e', q.storeOf e' = p.storeOf e') ∧
      (∀ later, (serve e later q).1 = (serve e later p).1 ∧
        ∀ e', (serve e later q).2.storeOf e' = (serve e later p).2.storeOf e') ∧
      (q.tree = p.tree ∨ ∃ job p' context row images, c.job t p = .ok job p' ∧
        job.ReachesImages (p'.workspace e none) context row images ∧
        p.tree.LosesOnly q.tree (context.files.IsPageFile p.tree row.hash
          ((p.storeOf e).Outdated row.id images))) := by
  have hcore : q.Serves e ∧ (∀ e', q.storeOf e' = p.storeOf e') ∧
      (q.tree = p.tree ∨ ∃ job p' context row images, c.job t p = .ok job p' ∧
        job.ReachesImages (p'.workspace e none) context row images ∧
        p.tree.LosesOnly q.tree (context.files.IsPageFile p.tree row.hash
          ((p.storeOf e).Outdated row.id images))) := by
    rcases perform_eq_error hp h with hreads | ⟨job, p', w, hjob, hreads, hrun, rfl⟩
    · exact ⟨hreads.serves hp, hreads.storeOf, Or.inl hreads.tree⟩
    · have hunit := hreads.workspace_unit e
      refine ⟨(hreads.serves hp).after e w, fun e' => ?_, ?_⟩
      · rw [Application.storeOf_after, Job.run_error hunit hrun, hreads.storeOf]
        split_ifs with he
        · rw [he]
          rfl
        · rfl
      · have htree : (p'.workspace e none).tree = p.tree := hreads.tree
        rcases Job.run_error_tree hunit hrun with hsame | ⟨context, row, images, hreached, hloses⟩
        · exact Or.inl (hsame.trans htree)
        · rw [htree] at hloses
          exact Or.inr ⟨job, p', context, row, images, hjob, hreached, hloses⟩
  obtain ⟨hserves, hstores, hfiles⟩ := hcore
  exact ⟨hserves, hstores, Application.serve_alike hp hserves hstores, hfiles⟩

/-! ## A file that does not come back -/

/-- An archive with one page, whose file is there. -/
def Application.onePage : Application where
  tree :=
    { files := [(["images", "a1", "1.png"], .empty)]
      folders := [["images"], ["images", "a1"]] }
  stores := [(.memory 0,
    { archives := [⟨1, "a1", "First", ⟨⟨2024, 1, 1⟩, ⟨0, 0, 0, 0⟩, none⟩⟩]
      images := [⟨1, 1, 1, "1.png", none, none⟩] })]
  bound := some (.memory 0)

def Terms.removing : Terms where
  now := ⟨⟨2024, 1, 1⟩, ⟨0, 0, 0, 0⟩, none⟩
  settings := some { images := ⟨.slash, ["images"]⟩, removeOnUpdate := true }

/-- The width is one that no column holds. -/
def Call.tooWide : Call :=
  .syncImages 1 [⟨"1.jpg", 1, some 0x8000000000000000, none⟩]

theorem Call.tooWide_undone : ∃ f q,
    tooWide.perform Terms.removing Application.onePage = .error f q ∧
      (∀ e, q.storeOf e = Application.onePage.storeOf e) ∧
      q.tree.isFile ["images", "a1", "1.png"] = false := by
  obtain ⟨f, q, hrun⟩ := Work.eq_error_of_returns (x := tooWide.perform Terms.removing)
    (w := Application.onePage) (by decide +kernel)
  have hundone := failure_undone (e := .memory 0) ⟨rfl, rfl⟩ hrun
  have hgone : (Work.left (tooWide.perform Terms.removing) Application.onePage).tree.isFile
      ["images", "a1", "1.png"] = false := by decide +kernel
  rw [Work.left_of_error hrun] at hgone
  exact ⟨f, q, hrun, hundone.2.1, hgone⟩

/-- The database fails at the commit, after the file of the page has gone. -/
example :
    let p := Application.onePage.troubled
      [none, none, none, none, some (.failed "database or disk is full")]
    let x := (Call.syncImages 1 [⟨"1.jpg", 1, none, none⟩]).perform Terms.removing
    Work.failure? x p = some (.unit (.store (.failed "database or disk is full"))) ∧
      (Work.left x p).storeOf (.memory 0) = p.storeOf (.memory 0) ∧
      (Work.left x p).tree.isFile ["images", "a1", "1.png"] = false := by
  decide +kernel

end GalleryCatalog
