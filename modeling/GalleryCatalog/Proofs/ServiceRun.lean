import Mathlib.Tactic.SplitIfs
import GalleryCatalog.Proofs.SoundStore

/-!
# What services do

A service on an archive finds its row, runs the passes on a live view, and commits what
they leave. A reconciliation that returns has done the passes whose collections are
there, sources first, then tags, then images, and nothing else.
-/

set_option autoImplicit false

namespace GalleryCatalog

open Work (Keeps Within)

/-- The files are the same. -/
def Work.SameTree (w v : Workspace) : Prop :=
  v.tree = w.tree

instance : Std.Refl Work.SameTree where
  refl _ := rfl

instance : IsTrans Workspace Work.SameTree where
  trans _ _ _ h₁ h₂ := h₂.trans h₁

theorem Work.access_tree {α : Type} (x : Access α) : Keeps Work.SameTree (Work.access x) := by
  intro w
  obtain ⟨troubles, -, hdone | ⟨-, e, herror⟩⟩ := Work.ofDatabase_does (UnitOfWork.use x) w
  · unfold Work.SameTree Work.left Work.access
    rw [hdone, Work.ofUnit]
    cases UnitOfWork.use x w.unit <;> rfl
  · rw [Work.access, Work.left_of_error herror]
    rfl

theorem Work.notify_tree (n : Notice) : Keeps Work.SameTree (Work.notify n) :=
  fun _ => rfl

theorem Work.tree_compositional : Work.Compositional fun x => Keeps Work.SameTree x :=
  Work.keeps_compositional Work.access_tree Work.notify_tree

namespace Reconcile

/-! ## What is so of passes -/

section Compositional

variable {Q : ∀ {α : Type}, Work α → Prop} (hQ : Work.Compositional Q)
include hQ

theorem sources_compositional (id : Int) (rules : List SourceRule) (merge verbose : Bool)
    (incoming : List Source) : Q (sources id rules merge verbose incoming) := by
  have hstore : ∀ x, Q (storeSource id verbose x) := by
    intro x
    unfold storeSource
    split_ifs
    · exact hQ.access _
    · exact hQ.notify _
    · exact hQ.pure ()
  apply hQ.bind (hQ.access _)
  intro current
  apply hQ.bind (hQ.forM (fun _ => hQ.access _) _)
  intro _
  apply hQ.bind (hQ.forM hstore _)
  intro _
  exact hQ.pure _

theorem idsOf_compositional (id : Int) (known : List TagRow) (tags : List Tag) :
    Q (idsOf id known tags) := by
  induction tags with
  | nil => exact hQ.pure []
  | cons t tags ih =>
    unfold idsOf
    split
    · exact hQ.noRow id t
    · apply hQ.bind ih
      intro ids
      exact hQ.pure _

theorem tags_compositional (answers : TagAnswers) (id : Int) (rules : List TagRule)
    (incoming : List Tag) : Q (tags answers id rules incoming) := by
  have hlookUp : ∀ ts, Q (lookUp answers ts) := fun ts =>
    hQ.bind (hQ.access _) fun _ => hQ.pure _
  have hupsert : ∀ ts, Q (upsert answers ts) := fun ts =>
    hQ.bind (hQ.access _) fun _ => hQ.pure _
  apply hQ.bind (hlookUp _)
  intro found
  apply hQ.bind (hupsert _)
  intro added
  apply hQ.bind (hQ.access _)
  intro linked
  apply hQ.bind (hQ.forM (fun _ => hQ.access _) _)
  intro _
  apply hQ.bind (idsOf_compositional hQ id _ _)
  intro ids
  apply hQ.bind (hQ.access _)
  intro _
  exact hQ.pure _

variable (hfiles : ∀ {α : Type} (f : FileTree → α × FileTree), Q (Work.onFiles f))
include hfiles

theorem images_compositional (id : Int) (hash : String) (files : Option PageFile.Directory)
    (removeOnUpdate : Bool) (incoming : List Image) :
    Q (images id hash files removeOnUpdate incoming) := by
  have hremove : ∀ replaced, Q (removeReplaced files removeOnUpdate hash replaced) := by
    intro replaced
    unfold removeReplaced
    split
    · split_ifs
      · exact hfiles _
      · exact hQ.pure 0
    · exact hQ.pure 0
  apply hQ.bind (hQ.access _)
  intro current
  apply hQ.bind (hremove _)
  intro removed
  apply hQ.bind (hQ.access _)
  intro _
  apply hQ.bind (hQ.access _)
  intro _
  exact hQ.pure _

theorem archive_compositional (answers : TagAnswers) (o : Options)
    (files : Option PageFile.Directory) (id : Int) (hash : String) (m : Metadata) :
    Q (archive answers o files id hash m) := by
  apply hQ.bind (hQ.optionally (sources_compositional hQ id _ _ _) m.sources)
  intro sourcePart
  apply hQ.bind (hQ.optionally (tags_compositional hQ answers id _) m.tags)
  intro tagPart
  apply hQ.bind (hQ.optionally (images_compositional hQ hfiles id hash files _) m.images)
  intro imagePart
  exact hQ.pure _

end Compositional

/-! No pass commits or closes anything. -/

theorem sources_within (id : Int) (rules : List SourceRule) (merge verbose : Bool)
    (incoming : List Source) : Keeps Within (sources id rules merge verbose incoming) :=
  sources_compositional Work.within_compositional id rules merge verbose incoming

theorem tags_within (answers : TagAnswers) (id : Int) (rules : List TagRule)
    (incoming : List Tag) : Keeps Within (tags answers id rules incoming) :=
  tags_compositional Work.within_compositional answers id rules incoming

theorem images_within (id : Int) (hash : String) (files : Option PageFile.Directory)
    (removeOnUpdate : Bool) (incoming : List Image) :
    Keeps Within (images id hash files removeOnUpdate incoming) :=
  images_compositional Work.within_compositional Work.onFiles_within id hash files removeOnUpdate
    incoming

theorem archive_within (answers : TagAnswers) (o : Options)
    (files : Option PageFile.Directory) (id : Int) (hash : String) (m : Metadata) :
    Keeps Within (archive answers o files id hash m) :=
  archive_compositional Work.within_compositional Work.onFiles_within answers o files id hash m

theorem sources_tree (id : Int) (rules : List SourceRule) (merge verbose : Bool)
    (incoming : List Source) :
    Keeps Work.SameTree (sources id rules merge verbose incoming) :=
  sources_compositional Work.tree_compositional id rules merge verbose incoming

theorem tags_tree (answers : TagAnswers) (id : Int) (rules : List TagRule)
    (incoming : List Tag) : Keeps Work.SameTree (tags answers id rules incoming) :=
  tags_compositional Work.tree_compositional answers id rules incoming

theorem archive_unimpeded (answers : TagAnswers) (o : Options)
    (files : Option PageFile.Directory) (id : Int) (hash : String) (m : Metadata) :
    Work.Unimpeded (archive answers o files id hash m) :=
  archive_compositional Work.unimpeded_compositional Work.onFiles_unimpeded answers o files id
    hash m

/-! ## The passes of a reconciliation -/

/-- The store after the pass over sources. -/
def sourced (o : Options) (id : Int) (m : Metadata) (s : Store) : Store :=
  match m.sources with
  | none => s
  | some xs => s.afterSources id o.sourceRules o.mergeSources xs

/-- The store after the passes over sources and tags. -/
def tagged (answers : TagAnswers) (o : Options) (id : Int) (m : Metadata) (s : Store) : Store :=
  match m.tags with
  | none => sourced o id m s
  | some ts => (sourced o id m s).afterTags answers id (normalizeTags o.tagRules ts)

/-- The store after all passes. -/
def reconciled (answers : TagAnswers) (o : Options) (id : Int) (m : Metadata) (s : Store) :
    Store :=
  match m.images with
  | none => tagged answers o id m s
  | some is => (tagged answers o id m s).afterImages id is

/-- What a reconciliation removes of the files of an archive. -/
def removedFor (o : Options) (files : Option PageFile.Directory) (id : Int) (hash : String)
    (images : List Image) (s : Store) (t : FileTree) : Nat × FileTree :=
  removal files o.removeOnUpdate hash (replacedImages (winners images) (s.imagesOf id)) t

/-- What a reconciliation counts. -/
def outcomeOf (answers : TagAnswers) (o : Options) (files : Option PageFile.Directory)
    (id : Int) (hash : String) (m : Metadata) (s : Store) (t : FileTree) : ArchiveOutcome where
  archive := id
  sources := m.sources.map fun xs =>
    sourceOutcome o.sourceRules o.mergeSources xs (s.sourcesOf id)
  tags := m.tags.map fun ts =>
    tagOutcome answers id (normalizeTags o.tagRules ts) (sourced o id m s)
  images := m.images.map fun is =>
    imageOutcome is (s.imagesOf id) (removedFor o files id hash is s t).1

/-- What is so when a reconciliation has returned: the store and the files that it leaves,
what it has counted, and what none of its passes was stopped by. -/
structure Done (answers : TagAnswers) (o : Options) (files : Option PageFile.Directory)
    (id : Int) (hash : String) (m : Metadata) (w : Workspace) (s : Store) (r : ArchiveOutcome)
    (v : Workspace) : Prop where
  store : v.unit.session = some (.live (reconciled answers o id m s))
  calm : v.troubles = []
  tree : v.tree = match m.images with
    | none => w.tree
    | some is => (removedFor o files id hash is s w.tree).2
  outcome : r = outcomeOf answers o files id hash m s w.tree
  linkable : ∀ ts ∈ m.tags, Linkable answers id (normalizeTags o.tagRules ts) (sourced o id m s)
  links_once : s.links.Nodup → (tagged answers o id m s).links.Nodup
  bindable : ∀ ts ∈ m.tags, Bindable answers (normalizeTags o.tagRules ts) (sourced o id m s)
  storable : ∀ is ∈ m.images, Storable id is s

theorem Done.on {answers : TagAnswers} {o : Options} {files : Option PageFile.Directory}
    {id : Int} {hash : String} {m : Metadata} {w : Workspace} {s : Store} {r : ArchiveOutcome}
    {v : Workspace} (h : Done answers o files id hash m w s r v) :
    v.on (reconciled answers o id m s) = v :=
  (Workspace.on_of_session h.store).trans (Workspace.calm_of_calm h.calm)

theorem optionally_eq_ok {α β : Type} {pass : α → Work β} {o : Option α} {w v : Workspace}
    {r : Option β} : optionally pass o w = .ok r v ↔
      o = none ∧ r = none ∧ v = w ∨ ∃ a b, o = some a ∧ r = some b ∧ pass a w = .ok b v := by
  cases o with
  | none => simp [optionally, Work.pure_eq_ok, eq_comm]
  | some a =>
    have hrun : optionally pass (some a) w = (pass a >>= fun b => pure (some b)) w := rfl
    rw [hrun, Work.bind_eq_ok]
    simp [Work.pure_eq_ok, and_comm, eq_comm]

theorem sourced_rest (o : Options) (id : Int) (m : Metadata) (s : Store) :
    (sourced o id m s).archives = s.archives ∧ (sourced o id m s).images = s.images ∧
      (sourced o id m s).tags = s.tags ∧ (sourced o id m s).links = s.links := by
  unfold sourced
  split
  next => exact ⟨rfl, rfl, rfl, rfl⟩
  next xs _ =>
    obtain ⟨rows, hrows⟩ := Store.afterSources_frame id o.sourceRules o.mergeSources xs s
    rw [hrows]
    exact ⟨rfl, rfl, rfl, rfl⟩

theorem tagged_rest (answers : TagAnswers) (o : Options) (id : Int) (m : Metadata) (s : Store) :
    (tagged answers o id m s).archives = s.archives ∧
      (tagged answers o id m s).sources = (sourced o id m s).sources ∧
      (tagged answers o id m s).images = s.images := by
  obtain ⟨harchives, himages, -, -⟩ := sourced_rest o id m s
  unfold tagged
  split
  next => exact ⟨harchives, rfl, himages⟩
  next ts _ =>
    obtain ⟨rows, links, hframe⟩ :=
      afterTags_frame answers id (normalizeTags o.tagRules ts) (sourced o id m s)
    rw [hframe]
    exact ⟨harchives, rfl, himages⟩

theorem reconciled_rest (answers : TagAnswers) (o : Options) (id : Int) (m : Metadata)
    (s : Store) :
    (reconciled answers o id m s).archives = s.archives ∧
      (reconciled answers o id m s).sources = (sourced o id m s).sources ∧
      (reconciled answers o id m s).tags = (tagged answers o id m s).tags ∧
      (reconciled answers o id m s).links = (tagged answers o id m s).links := by
  obtain ⟨harchives, hsources, -⟩ := tagged_rest answers o id m s
  unfold reconciled
  split
  next => exact ⟨harchives, hsources, rfl, rfl⟩
  next is _ =>
    obtain ⟨rows, hrows⟩ := Store.afterImages_frame id is (tagged answers o id m s)
    rw [hrows]
    exact ⟨harchives, hsources, rfl, rfl⟩

/-! A collection that is left out is left as it is. -/

section LeftOut

variable (answers : TagAnswers) (o : Options) (id : Int) {m : Metadata} (s : Store)

theorem reconciled_no_sources (hm : m.sources = none) :
    (reconciled answers o id m s).sources = s.sources := by
  rw [(reconciled_rest answers o id m s).2.1, sourced, hm]

theorem reconciled_no_images (hm : m.images = none) :
    (reconciled answers o id m s).images = s.images := by
  rw [reconciled, hm, (tagged_rest answers o id m s).2.2]

theorem reconciled_no_tags (hm : m.tags = none) :
    (reconciled answers o id m s).tags = s.tags ∧ (reconciled answers o id m s).links = s.links := by
  obtain ⟨-, -, htags, hlinks⟩ := reconciled_rest answers o id m s
  rw [htags, hlinks, tagged, hm]
  exact (sourced_rest o id m s).2.2

end LeftOut

theorem tagged_imagesOf (answers : TagAnswers) (o : Options) (id : Int) (m : Metadata)
    (s : Store) : (tagged answers o id m s).imagesOf id = s.imagesOf id := by
  unfold Store.imagesOf
  rw [(tagged_rest answers o id m s).2.2]

theorem sources_done {id : Int} (h : fits id = true) (o : Options) (m : Metadata)
    (w : Workspace) (s : Store) :
    ∃ v : Workspace, v.tree = w.tree ∧
      optionally (sources id o.sourceRules o.mergeSources o.verbose) m.sources (w.on s) =
        .ok (m.sources.map fun xs =>
          sourceOutcome o.sourceRules o.mergeSources xs (s.sourcesOf id)) (v.on (sourced o id m s)) := by
  unfold sourced
  cases m.sources with
  | none => exact ⟨w, rfl, rfl⟩
  | some xs =>
    have hpass := sources_on h o.sourceRules o.mergeSources o.verbose xs w s
    exact ⟨_, (afterSource_unit id o.verbose _ w).2, Work.bind_of_ok hpass⟩

theorem tags_done {answers : TagAnswers} {o : Options} {id : Int} {m : Metadata}
    {w v : Workspace} {s : Store} {part : Option TagOutcome}
    (h : optionally (tags answers id o.tagRules) m.tags (w.on (sourced o id m s)) = .ok part v) :
    v = w.on (tagged answers o id m s) ∧
      part = (m.tags.map fun ts =>
        tagOutcome answers id (normalizeTags o.tagRules ts) (sourced o id m s)) ∧
      (∀ ts ∈ m.tags, Linkable answers id (normalizeTags o.tagRules ts) (sourced o id m s)) ∧
      (∀ ts ∈ m.tags, Bindable answers (normalizeTags o.tagRules ts) (sourced o id m s)) ∧
      (s.links.Nodup → (tagged answers o id m s).links.Nodup) := by
  have hlinks := (sourced_rest o id m s).2.2.2
  rcases optionally_eq_ok.mp h with ⟨hm, rfl, rfl⟩ | ⟨ts, b, hm, rfl, hpass⟩
  · simp [tagged, hm, hlinks]
  · have hbindable := tags_bindable hpass
    obtain ⟨rfl, rfl, hknown, honce⟩ := tags_eq_ok hpass
    refine ⟨by simp [tagged, hm], by simp [hm], ?_, ?_, ?_⟩
    · intro us hus
      obtain rfl : ts = us := by simpa [hm] using hus
      exact hknown
    · intro us hus
      obtain rfl : ts = us := by simpa [hm] using hus
      exact hbindable
    · intro hs
      simpa [tagged, hm] using honce (hlinks ▸ hs)

theorem images_done {answers : TagAnswers} {o : Options} {files : Option PageFile.Directory}
    {id : Int} (hid : fits id = true) {hash : String} {m : Metadata} {w v : Workspace}
    {s : Store} {part : Option ImageOutcome}
    (h : optionally (images id hash files o.removeOnUpdate) m.images
      (w.on (tagged answers o id m s)) = .ok part v) :
    v.unit.session = some (.live (reconciled answers o id m s)) ∧ v.troubles = [] ∧
      (v.tree = match m.images with
        | none => w.tree
        | some is => (removedFor o files id hash is s w.tree).2) ∧
      part = (m.images.map fun is =>
        imageOutcome is (s.imagesOf id) (removedFor o files id hash is s w.tree).1) ∧
      ∀ is ∈ m.images, Storable id is s := by
  rcases optionally_eq_ok.mp h with ⟨hm, rfl, rfl⟩ | ⟨is, b, hm, rfl, hpass⟩
  · simp [reconciled, hm, Workspace.on, UnitOfWork.opened]
  · obtain ⟨⟨hput, hdelete⟩, rfl, rfl⟩ := images_on_eq_ok hid hpass
    rw [tagged_imagesOf] at hdelete ⊢
    refine ⟨by simp [reconciled, hm], rfl, by simp [hm, removedFor, Workspace.withTree],
      by simp [hm, removedFor], ?_⟩
    intro js hjs
    obtain rfl : is = js := by simpa [hm] using hjs
    exact ⟨hput, hdelete⟩

/-- Every pass of a reconciliation that returns has returned. -/
theorem archive_eq_ok {answers : TagAnswers} {o : Options} {files : Option PageFile.Directory}
    {id : Int} (hid : fits id = true) {hash : String} {m : Metadata} {w v : Workspace}
    {s : Store} {r : ArchiveOutcome} (h : archive answers o files id hash m (w.on s) = .ok r v) :
    Done answers o files id hash m w s r v := by
  obtain ⟨u, hu, hsources⟩ := sources_done hid o m w s
  unfold archive at h
  rw [Work.bind_of_ok hsources] at h
  obtain ⟨tagPart, u₁, htags, h⟩ := Work.bind_eq_ok.mp h
  obtain ⟨imagePart, u₂, himages, h⟩ := Work.bind_eq_ok.mp h
  obtain ⟨rfl, rfl⟩ := Work.pure_eq_ok.mp h
  obtain ⟨rfl, rfl, hlinkable, hbindable, honce⟩ := tags_done htags
  obtain ⟨hstore, hcalm, htree, rfl, hstorable⟩ := images_done hid himages
  rw [hu] at htree
  exact ⟨hstore, hcalm, htree, by simp [outcomeOf, hu], hlinkable, honce, hbindable, hstorable⟩

end Reconcile

theorem Store.Sound.sourced {s : Store} (h : s.Sound) {id : Int} (ha : s.HasArchive id)
    (o : Reconcile.Options) (m : Metadata) : (Reconcile.sourced o id m s).Sound := by
  unfold Reconcile.sourced
  split
  · exact h
  · exact h.afterSources ha _ _ _

theorem Store.Sound.reconciled {s : Store} (h : s.Sound) {id : Int} (ha : s.HasArchive id)
    {answers : Reconcile.TagAnswers} {o : Reconcile.Options} {m : Metadata}
    (honce : (Reconcile.tagged answers o id m s).links.Nodup) :
    (Reconcile.reconciled answers o id m s).Sound := by
  have hsourced := h.sourced ha o m
  have htagged : (Reconcile.tagged answers o id m s).Sound := by
    unfold Reconcile.tagged at honce ⊢
    split at honce
    next => exact hsourced
    next ts _ =>
      have harchive : (Reconcile.sourced o id m s).HasArchive id := by
        rwa [Store.HasArchive, (Reconcile.sourced_rest o id m s).1]
      exact hsourced.afterTags harchive answers (fun t ht => normalizeTags_space_ne ht) honce
  unfold Reconcile.reconciled
  split
  · exact htagged
  · have harchive : (Reconcile.tagged answers o id m s).HasArchive id := by
      rwa [Store.HasArchive, (Reconcile.tagged_rest answers o id m s).1]
    exact htagged.afterImages harchive _

/-! ## Services on an archive -/

/-- The row of an archive. -/
def Store.row? (s : Store) (id : Int) : Option ArchiveRow :=
  s.archives.find? fun r => r.id = id

theorem Store.row?_mem {s : Store} {id : Int} {row : ArchiveRow} (h : s.row? id = some row) :
    row ∈ s.archives ∧ row.id = id :=
  ⟨List.mem_of_find?_eq_some h, by simpa using List.find?_some h⟩

theorem Store.row?_hasArchive {s : Store} {id : Int} {row : ArchiveRow}
    (h : s.row? id = some row) : s.HasArchive id := by
  obtain ⟨hmem, rfl⟩ := Store.row?_mem h
  exact List.mem_map_of_mem hmem

theorem Store.hasArchive_iff {s : Store} {id : Int} :
    s.HasArchive id ↔ ∃ row, s.row? id = some row := by
  constructor
  · intro h
    obtain ⟨row, hrow, hid⟩ := List.mem_map.mp h
    rw [← Option.isSome_iff_exists, row?, List.find?_isSome]
    exact ⟨row, hrow, decide_eq_true hid⟩
  · rintro ⟨row, hrow⟩
    exact row?_hasArchive hrow

namespace Service

variable {α : Type}

/-- The work of a service on an archive within its unit of work. -/
def onRow (id : Int) (work : ArchiveRow → Work α) : Work α := do
  match ← Work.access (Repository.archive? id) with
  | some row => work row
  | none => throw (.noArchive id)

theorem findArchive_on (id : Int) (w : Workspace) (s : Store) :
    Work.access (Repository.archive? id) (w.on s) =
      if fits id then .ok (s.row? id) (w.on s) else .error outOfRange (w.on s) := by
  split_ifs with hid
  · have hfind : Store.archive? id s = .ok (s.row? id) s := Work.requires_ok (by simp [hid]) _ s
    exact Work.access_ok hfind w
  · exact Work.access_error (Work.requires_error (by simp [hid]) _ s) w

theorem onRow_on {id : Int} {work : ArchiveRow → Work α} {s : Store} {row : ArchiveRow}
    (hid : fits id = true) (hrow : s.row? id = some row) (w : Workspace) :
    onRow id work (w.on s) = work row (w.on s) := by
  have hfind : Work.access (Repository.archive? id) (w.on s) = .ok (some row) (w.on s) := by
    rw [findArchive_on, if_pos hid, hrow]
  exact Work.bind_of_ok hfind

theorem onRow_unknown {id : Int} {s : Store} (hid : fits id = true) (hrow : s.row? id = none)
    (work : ArchiveRow → Work α) (w : Workspace) :
    onRow id work (w.on s) = .error (.noArchive id) (w.on s) := by
  have hfind : Work.access (Repository.archive? id) (w.on s) = .ok none (w.on s) := by
    rw [findArchive_on, if_pos hid, hrow]
  exact Work.bind_of_ok hfind

theorem onRow_unfit {id : Int} (hid : ¬ fits id = true) (work : ArchiveRow → Work α)
    (w : Workspace) (s : Store) : onRow id work (w.on s) = .error outOfRange (w.on s) :=
  Work.bind_of_error (by rw [findArchive_on, if_neg hid])

/-- Without a row any work fails before it starts. -/
theorem onRow_missing {id : Int} {s : Store} (h : ¬ (fits id = true ∧ (s.row? id).isSome)) :
    ∃ f, ∀ {α : Type} (work : ArchiveRow → Work α) (w : Workspace),
      onRow id work (w.on s) = .error f (w.on s) := by
  by_cases hid : fits id = true
  · have hnone : s.row? id = none := by simpa [hid] using h
    exact ⟨.noArchive id, onRow_unknown hid hnone⟩
  · exact ⟨outOfRange, fun work w => onRow_unfit hid work w s⟩

theorem onRow_keeps {R : Workspace → Workspace → Prop} [Std.Refl R] [IsTrans Workspace R]
    (haccess : ∀ {α : Type} (x : Access α), Keeps R (Work.access x)) {id : Int}
    {work : ArchiveRow → Work α} (hwork : ∀ row, Keeps R (work row)) :
    Keeps R (onRow id work) := by
  apply Work.bind_keeps (haccess _)
  intro found
  cases found with
  | some row => exact hwork row
  | none => exact Work.throw_keeps _

theorem onRow_within {id : Int} {work : ArchiveRow → Work α}
    (hwork : ∀ row, Keeps Within (work row)) : Keeps Within (onRow id work) :=
  onRow_keeps Work.access_within hwork

theorem forArchive_ok {id : Int} {work : ArchiveRow → Work α} {w v : Workspace} {s s' : Store}
    {row : ArchiveRow} {a : α} (hid : fits id = true) (hrow : s.row? id = some row)
    (h : work row ((w.closedOn s).on s) = .ok a (v.on s')) :
    forArchive id work (w.closedOn s) = .ok a (v.closedOn s') :=
  inUnit_ok ((onRow_on hid hrow _).trans h)

theorem forArchive_error {id : Int} {work : ArchiveRow → Work α} {w v : Workspace} {s s' : Store}
    {row : ArchiveRow} {f : Failure} (hid : fits id = true) (hrow : s.row? id = some row)
    (h : work row ((w.closedOn s).on s) = .error f (v.on s')) :
    forArchive id work (w.closedOn s) = .error f (v.closedOn v.unit.committed) :=
  inUnit_error (v := v.on s') ((onRow_on hid hrow _).trans h) rfl rfl

theorem forArchive_eq_ok {id : Int} {work : ArchiveRow → Work α}
    (hwork : ∀ row, Keeps Within (work row)) {w u : Workspace} {s : Store} {a : α}
    (h : forArchive id work (w.closedOn s) = .ok a u) :
    fits id = true ∧ ∃ row, s.row? id = some row ∧
      ∃ (v : Workspace) (s' : Store),
        work row ((w.closedOn s).on s) = .ok a (v.on s') ∧ u = v.closedOn s' := by
  obtain ⟨v, s', hrun, rfl⟩ := inUnit_eq_ok (onRow_within hwork) h
  by_cases hfound : fits id = true ∧ (s.row? id).isSome
  · obtain ⟨hid, hsome⟩ := hfound
    obtain ⟨row, hrow⟩ := Option.isSome_iff_exists.mp hsome
    rw [onRow_on hid hrow] at hrun
    exact ⟨hid, row, hrow, v, s', hrun, rfl⟩
  · obtain ⟨f, hmissing⟩ := onRow_missing hfound
    simp [hmissing] at hrun

/-- Whatever errors the database gives, a service that fails leaves the store as it was and the
files as its work has left them. -/
theorem forArchive_eq_error {id : Int} {work : ArchiveRow → Work α}
    (hwork : ∀ row, Keeps Within (work row)) {w u : Workspace} {s : Store} {f : Failure}
    (hw : w.unit = .closed s) (h : forArchive id work w = .error f u) :
    u.unit = .closed s ∧ u.tree = (Work.left (onRow id work) w.entered).tree :=
  inUnit_fails_anyhow (onRow_within hwork) hw h

theorem onRow_unimpeded {id : Int} {work : ArchiveRow → Work α}
    (hwork : ∀ row, Work.Unimpeded (work row)) : Work.Unimpeded (onRow id work) := by
  apply Work.bind_unimpeded (Work.ofDatabase_unimpeded _)
  intro found
  cases found with
  | some row => exact hwork row
  | none => exact Work.throw_unimpeded _

theorem forArchive_unimpeded {id : Int} {work : ArchiveRow → Work α}
    (hwork : ∀ row, Work.Unimpeded (work row)) : Work.Unimpeded (forArchive id work) :=
  inUnit_unimpeded (onRow_unimpeded hwork)

/-- On a row that is there a service fails as its work does, or for want of a view to commit. -/
theorem forArchive_fails {id : Int} {work : ArchiveRow → Work α}
    (hwork : ∀ row, Keeps Within (work row)) {w u : Workspace} {s : Store} {row : ArchiveRow}
    {f : Failure} (hid : fits id = true) (hrow : s.row? id = some row)
    (h : forArchive id work (w.closedOn s) = .error f u) :
    (∃ v, work row ((w.closedOn s).on s) = .error f v) ∨ f = .unit (.store .undone) := by
  obtain ⟨hfails, -⟩ := inUnit_fails (onRow_within hwork) h
  rwa [onRow_on hid hrow] at hfails

/-! ## New archives -/

theorem orUndo_eq_ok {x : Statement α} {w v : Workspace} {s : Store} {a : α}
    (h : Work.access x.orUndo (w.on s) = .ok a v) : ∃ s', x s = .ok a s' ∧ v = w.on s' := by
  cases hx : x s with
  | ok b s' =>
    have hrun : x.orUndo (.live s) = .ok b (.live s') := by simp only [Statement.orUndo, hx]
    rw [Work.access_live hrun w, EStateM.Result.ok.injEq] at h
    exact ⟨s', by rw [h.1], h.2.symm⟩
  | error e s' =>
    rw [Work.access, Work.ofDatabase_calm _ rfl] at h
    simp [Work.ofUnit, UnitOfWork.use, Workspace.on, UnitOfWork.opened, Statement.orUndo, hx] at h

/-- An archive is added under a number and a hash that no other one has, and its row holds the
universal moment of its date. -/
theorem addArchive_dated {a : NewArchive} {s s' : Store} {id : Int}
    (h : Store.addArchive a s = .ok id s') :
    ∃ (row : ArchiveRow) (created : Calendar.Moment), s' = s.withArchive row ∧ row.id = id ∧
      a.hash = some row.hash ∧ a.title = some row.title ∧
      a.created.universal? = some created ∧ row.created = created.bare ∧
      (∀ r ∈ s.archives, r.id ≠ row.id) ∧ ∀ r ∈ s.archives, r.hash ≠ row.hash := by
  rcases a with ⟨given, hash, title, moment⟩
  unfold Store.addArchive at h
  cases hmoment : moment.universal? with
  | none => simp [hmoment] at h
  | some created =>
    simp only [hmoment] at h
    have hrest := Work.requires_eq_ok h
    rcases hash with _ | hash
    · simp at hrest
    rcases title with _ | title
    · simp at hrest
    dsimp only at hrest
    rw [Work.get_bind_apply] at hrest
    split_ifs at hrest with hid hhash
    · simp at hrest
    · simp at hrest
    · obtain ⟨rfl, rfl⟩ := EStateM.Result.ok.inj hrest
      exact ⟨⟨_, hash, title, created.bare⟩, created, rfl, rfl, rfl, rfl, rfl, rfl,
        by simpa using hid, by simpa using hhash⟩

theorem addArchive_eq_ok {a : NewArchive} {s s' : Store} {id : Int}
    (h : Store.addArchive a s = .ok id s') :
    ∃ row : ArchiveRow, s' = s.withArchive row ∧ row.id = id ∧ a.hash = some row.hash ∧
      a.title = some row.title ∧ (∀ r ∈ s.archives, r.id ≠ row.id) ∧
      ∀ r ∈ s.archives, r.hash ≠ row.hash := by
  obtain ⟨row, -, hstore, hid, hhash, htitle, -, -, hfree⟩ := addArchive_dated h
  exact ⟨row, hstore, hid, hhash, htitle, hfree⟩

/-- The work of adding an archive within its unit of work. -/
def register (now : Calendar.Moment) (hash title : String) : Work Int := do
  requireFree hash
  Work.access (Repository.addArchive ⟨none, some hash, some title, now⟩)

theorem requireFree_keeps {R : Workspace → Workspace → Prop} [Std.Refl R] [IsTrans Workspace R]
    (haccess : ∀ {α : Type} (x : Access α), Keeps R (Work.access x)) (hash : String) :
    Keeps R (requireFree hash) := by
  apply Work.bind_keeps (haccess _)
  intro found
  cases found with
  | some row => exact Work.throw_keeps _
  | none => exact Work.pure_keeps ()

theorem register_keeps {R : Workspace → Workspace → Prop} [Std.Refl R] [IsTrans Workspace R]
    (haccess : ∀ {α : Type} (x : Access α), Keeps R (Work.access x))
    (now : Calendar.Moment) (hash title : String) : Keeps R (register now hash title) := by
  apply Work.bind_keeps (requireFree_keeps haccess hash)
  intro _
  exact haccess _

theorem requireFree_eq_ok {hash : String} {w v : Workspace} {s : Store}
    (h : requireFree hash (w.on s) = .ok () v) : v = w.on s := by
  obtain ⟨found, u, hfind, h⟩ := Work.bind_eq_ok.mp h
  obtain ⟨s', hs', rfl⟩ := Work.access_eq_ok.mp hfind
  obtain ⟨-, rfl⟩ := EStateM.Result.ok.inj hs'
  cases found with
  | some row => simp at h
  | none => exact (Work.pure_eq_ok.mp h).2.symm

theorem createArchive_eq_ok {now : Calendar.Moment} {hash title : String} {w u : Workspace}
    {s : Store} {a : Archive} (h : createArchive now hash title (w.closedOn s) = .ok a u) :
    ∃ row : ArchiveRow, u.unit = .closed (s.withArchive row) ∧
      a = ⟨some row.id, row.hash, row.title⟩ ∧ (∀ r ∈ s.archives, r.id ≠ row.id) ∧
      ∀ r ∈ s.archives, r.hash ≠ row.hash := by
  obtain ⟨id, u₁, hunit, h⟩ := Work.bind_eq_ok.mp h
  obtain ⟨v, s', hrun, rfl⟩ := inUnit_eq_ok (register_keeps Work.access_within now hash title) hunit
  obtain ⟨_, v₁, hfree, hadd⟩ := Work.bind_eq_ok.mp hrun
  obtain rfl := requireFree_eq_ok hfree
  obtain ⟨s₁, hs₁, hv⟩ := orUndo_eq_ok hadd
  obtain ⟨row, rfl, rfl, hhash, htitle, hids, hhashes⟩ := addArchive_eq_ok hs₁
  obtain rfl : s' = s.withArchive row := Workspace.on_store hv
  obtain ⟨rfl, rfl⟩ := EStateM.Result.ok.inj h
  obtain rfl := Option.some.inj hhash
  obtain rfl := Option.some.inj htitle
  exact ⟨row, rfl, rfl, hids, hhashes⟩

theorem createArchive_gives {now : Calendar.Moment} {hash title : String} {w u : Workspace}
    {a : Archive} (h : createArchive now hash title w = .ok a u) :
    a.hash = hash ∧ a.title = title := by
  obtain ⟨id, v, -, h⟩ := Work.bind_eq_ok.mp h
  obtain ⟨-, v, -, hpure⟩ := Work.bind_eq_ok.mp h
  obtain ⟨rfl, -⟩ := Work.pure_eq_ok.mp hpure
  exact ⟨rfl, rfl⟩

/-! ## One collection of an archive -/

theorem syncSources_eq_ok {c : Context} {id : Int} {merge verbose : Bool}
    {incoming : List Source} {w u : Workspace} {s : Store} {o : SourceOutcome}
    (h : syncSources c id merge verbose incoming (w.closedOn s) = .ok o u) :
    s.HasArchive id ∧
      u.unit = .closed (s.afterSources id c.settings.sourceRules merge incoming) := by
  obtain ⟨hid, row, hrow, v, s', hrun, rfl⟩ :=
    forArchive_eq_ok (fun _ => Reconcile.sources_within _ _ _ _ _) h
  rw [Reconcile.sources_on hid] at hrun
  obtain rfl := Workspace.on_store (EStateM.Result.ok.inj hrun).2
  exact ⟨Store.row?_hasArchive hrow, rfl⟩

theorem syncImages_eq_ok {c : Context} {id : Int} {incoming : List Image} {w u : Workspace}
    {s : Store} {o : ImageOutcome} (h : syncImages c id incoming (w.closedOn s) = .ok o u) :
    s.HasArchive id ∧ u.unit = .closed (s.afterImages id incoming) := by
  obtain ⟨hid, row, hrow, v, s', hrun, rfl⟩ :=
    forArchive_eq_ok (fun _ => Reconcile.images_within _ _ _ _ _) h
  obtain ⟨-, -, hv⟩ := Reconcile.images_on_eq_ok hid hrun
  obtain rfl := Workspace.on_store hv
  exact ⟨Store.row?_hasArchive hrow, rfl⟩

theorem syncTags_eq_ok {c : Context} {id : Int} {incoming : List Tag} {w u : Workspace}
    {s : Store} {o : TagOutcome} (h : syncTags c id incoming (w.closedOn s) = .ok o u) :
    s.HasArchive id ∧
      u.unit = .closed (s.afterTags c.answers id (normalizeTags c.settings.tagRules incoming)) ∧
      (s.links.Nodup → u.unit.committed.links.Nodup) := by
  obtain ⟨hid, row, hrow, v, s', hrun, rfl⟩ :=
    forArchive_eq_ok (fun _ => Reconcile.tags_within _ _ _ _) h
  obtain ⟨hv, -, -, honce⟩ := Reconcile.tags_eq_ok hrun
  obtain rfl := Workspace.on_store hv
  exact ⟨Store.row?_hasArchive hrow, rfl, honce⟩

theorem createArchive_eq_error {now : Calendar.Moment} {hash title : String}
    {w u : Workspace} {s : Store} {f : Failure} (hw : w.unit = .closed s)
    (h : createArchive now hash title w = .error f u) :
    u.unit = .closed s ∧ u.tree = w.tree := by
  rcases Work.bind_eq_error.mp h with hunit | ⟨id, v, -, hrest⟩
  · obtain ⟨hclosed, htree⟩ :=
      inUnit_fails_anyhow (register_keeps Work.access_within now hash title) hw hunit
    exact ⟨hclosed, htree.trans (register_keeps Work.access_tree now hash title _)⟩
  · rcases Work.bind_eq_error.mp hrest with hnotify | ⟨_, v, -, hpure⟩
    · cases hnotify
    · cases hpure

theorem requireFree_unimpeded (hash : String) : Work.Unimpeded (requireFree hash) := by
  apply Work.bind_unimpeded (Work.ofDatabase_unimpeded _)
  intro found
  cases found with
  | some row => exact Work.throw_unimpeded _
  | none => exact Work.pure_unimpeded ()

theorem createArchive_unimpeded (now : Calendar.Moment) (hash title : String) :
    Work.Unimpeded (createArchive now hash title) := by
  apply Work.bind_unimpeded (inUnit_unimpeded
    (Work.bind_unimpeded (requireFree_unimpeded hash) fun _ => Work.ofDatabase_unimpeded _))
  intro id
  apply Work.bind_unimpeded (Work.notify_unimpeded _)
  intro _
  exact Work.pure_unimpeded _

/-! ## Reconciliations -/

theorem reconcile_told (c : Context) (id : Int) (merge verbose : Bool) (m : Metadata)
    (w : Workspace) (s : Store) :
    reconcile c id merge verbose m (w.closedOn s) =
      (do
        let o ← reconcileWith c.answers (c.options merge verbose) (some c.files) id m
        Work.notify (.finished o)
        return o) ((w.told (.reconciling id m)).closedOn s) := by
  have hnotify : Work.notify (.reconciling id m) (w.closedOn s) =
      .ok () ((w.told (.reconciling id m)).closedOn s) := rfl
  exact Work.bind_of_ok hnotify

theorem reconcile_ok {c : Context} {id : Int} {merge verbose : Bool} {m : Metadata}
    {s s' : Store} {row : ArchiveRow} {r : ArchiveOutcome} {w v : Workspace}
    (hid : fits id = true) (hrow : s.row? id = some row)
    (h : Reconcile.archive c.answers (c.options merge verbose) (some c.files) id row.hash m
      (((w.told (.reconciling id m)).closedOn s).on s) = .ok r (v.on s')) :
    reconcile c id merge verbose m (w.closedOn s) = .ok r ((v.closedOn s').told (.finished r)) := by
  obtain ⟨-, rfl⟩ := Store.row?_mem hrow
  have hservice : reconcileWith c.answers (c.options merge verbose) (some c.files) row.id m
      ((w.told (.reconciling row.id m)).closedOn s) = .ok r (v.closedOn s') :=
    forArchive_ok hid hrow h
  rw [reconcile_told, Work.bind_of_ok hservice]
  rfl

/-- A reconciliation that returns has committed what its passes leave. -/
theorem reconcile_eq_ok {c : Context} {id : Int} {merge verbose : Bool} {m : Metadata}
    {w u : Workspace} {s : Store} {r : ArchiveOutcome}
    (h : reconcile c id merge verbose m (w.closedOn s) = .ok r u) :
    fits id = true ∧ ∃ row, s.row? id = some row ∧ ∃ w' v : Workspace, w'.tree = w.tree ∧
      Reconcile.Done c.answers (c.options merge verbose) (some c.files) id row.hash m w' s r v ∧
      u.unit = .closed (Reconcile.reconciled c.answers (c.options merge verbose) id m s) ∧
      u.tree = v.tree := by
  rw [reconcile_told] at h
  obtain ⟨o, u₁, hservice, hrest⟩ := Work.bind_eq_ok.mp h
  obtain ⟨rfl, rfl⟩ := EStateM.Result.ok.inj hrest
  obtain ⟨hid, row, hrow, v, s', hrun, rfl⟩ :=
    forArchive_eq_ok (fun _ => Reconcile.archive_within _ _ _ _ _ _) hservice
  obtain ⟨-, rfl⟩ := Store.row?_mem hrow
  have hdone := Reconcile.archive_eq_ok hid hrun
  obtain rfl : s' = Reconcile.reconciled c.answers (c.options merge verbose) row.id m s := by
    simpa using hdone.store
  exact ⟨hid, row, hrow, (w.told (.reconciling row.id m)).closedOn s, _, rfl, hdone, rfl, rfl⟩

/-- Without errors of the database to begin with there are none left. -/
theorem reconcile_calm {c : Context} {id : Int} {merge verbose : Bool} {m : Metadata}
    {w u : Workspace} {s : Store} {r : ArchiveOutcome}
    (h : reconcile c id merge verbose m (w.closedOn s) = .ok r u) : u.troubles = [] := by
  rw [reconcile_told] at h
  obtain ⟨o, u₁, hservice, hrest⟩ := Work.bind_eq_ok.mp h
  obtain ⟨-, rfl⟩ := EStateM.Result.ok.inj hrest
  obtain ⟨-, row, -, v, s', -, rfl⟩ :=
    forArchive_eq_ok (fun _ => Reconcile.archive_within _ _ _ _ _ _) hservice
  rfl

/-- A reconciliation that fails leaves the store as it was, and touches files only in its
passes. -/
theorem reconcile_eq_error {c : Context} {id : Int} {merge verbose : Bool} {m : Metadata}
    {w u : Workspace} {s : Store} {f : Failure} (hw : w.unit = .closed s)
    (h : reconcile c id merge verbose m w = .error f u) :
    u.unit = .closed s ∧
      u.tree = (Work.left (onRow id fun row => Reconcile.archive c.answers
        (c.options merge verbose) (some c.files) row.id row.hash m)
          (w.told (.reconciling id m)).entered).tree := by
  have hnotify : Work.notify (.reconciling id m) w = .ok () (w.told (.reconciling id m)) := rfl
  unfold reconcile at h
  rw [Work.bind_of_ok hnotify] at h
  rcases Work.bind_eq_error.mp h with hservice | ⟨o, v, -, hrest⟩
  · exact forArchive_eq_error (w := w.told (.reconciling id m))
      (fun _ => Reconcile.archive_within _ _ _ _ _ _) hw hservice
  · cases hrest

theorem reconcile_unimpeded (c : Context) (id : Int) (merge verbose : Bool) (m : Metadata) :
    Work.Unimpeded (reconcile c id merge verbose m) := by
  apply Work.bind_unimpeded (Work.notify_unimpeded _)
  intro _
  apply Work.bind_unimpeded (forArchive_unimpeded fun _ => Reconcile.archive_unimpeded _ _ _ _ _ _)
  intro outcome
  apply Work.bind_unimpeded (Work.notify_unimpeded _)
  intro _
  exact Work.pure_unimpeded _

end Service

end GalleryCatalog
