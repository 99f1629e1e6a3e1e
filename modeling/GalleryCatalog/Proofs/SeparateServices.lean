import Mathlib.Data.List.Perm.Basic
import GalleryCatalog.Proofs.Convergence
import GalleryCatalog.Proofs.Reconciliation
import GalleryCatalog.Proofs.Separation

/-!
# One service or three

An archive can be reconciled by one service, in one unit of work, or collection by
collection by three services, each with its own. As passes keep to themselves, two of them
can change places. So the three services may be called in any order, and when all of them
return, the one service returns the same and leaves the same rows and files.
-/

set_option autoImplicit false

namespace GalleryCatalog

open Service (Context)

/-- What an archive is to be reconciled with, all three collections. -/
structure FullRequest where
  context : Context
  archive : Int
  merge : Bool := false
  verbose : Bool := false
  sources : List Source
  images : List Image
  tags : List Tag

/-- The part of an outcome that belongs to a collection. -/
def ArchiveOutcome.part (o : ArchiveOutcome) : Collection → Option Returned
  | .sources => o.sources.map Returned.sources
  | .tags => o.tags.map Returned.tags
  | .images => o.images.map Returned.images

namespace FullRequest

def reconciliation (q : FullRequest) : Reconciliation where
  context := q.context
  archive := q.archive
  merge := q.merge
  verbose := q.verbose
  metadata := { sources := some q.sources, images := some q.images, tags := some q.tags }

/-- The service for everything. -/
def together (q : FullRequest) : Job :=
  q.reconciliation.job

/-- The service for one collection. -/
def apart (q : FullRequest) : Collection → Job
  | .sources => .syncSources q.context q.archive q.merge q.verbose q.sources
  | .tags => .syncTags q.context q.archive q.tags
  | .images => .syncImages q.context q.archive q.images

/-- Services for some collections, one after another, until one fails. -/
def inTurn (q : FullRequest) (order : List Collection) : Work (List Returned) :=
  order.mapM fun k => (q.apart k).run

/-- The pass over a collection within a unit of work. -/
def pass (q : FullRequest) (row : ArchiveRow) : Collection → Work Returned
  | .sources => Returned.sources <$> Reconcile.sources q.archive q.context.settings.sourceRules
      q.merge q.verbose q.sources
  | .tags => Returned.tags <$> Reconcile.tags q.context.answers q.archive
      q.context.settings.tagRules q.tags
  | .images => Returned.images <$> Reconcile.images q.archive row.hash (some q.context.files)
      q.context.settings.removeOnUpdate q.images

/-- A pass on a stock returns and leaves another stock. -/
def Ends (q : FullRequest) (row : ArchiveRow) (k : Collection) (σ : Stock) (r : Returned)
    (τ : Stock) : Prop :=
  ∀ w : Workspace, ∃ v : Workspace, q.pass row k (w.stocked σ) = .ok r (v.stocked τ)

/-- A pass on a stock fails. -/
def Fails (q : FullRequest) (row : ArchiveRow) (k : Collection) (σ : Stock) (f : Failure) : Prop :=
  ∀ w : Workspace, ∃ (v : Workspace) (s : Store), q.pass row k (w.stocked σ) = .error f (v.on s)

section Pass

variable {q : FullRequest} {row : ArchiveRow} {k : Collection} {σ τ : Stock} {r : Returned}

theorem Ends.unique {r' : Returned} {τ' : Stock} (h : Ends q row k σ r τ)
    (h' : Ends q row k σ r' τ') : r = r' ∧ τ = τ' := by
  obtain ⟨v, hv⟩ := h {}
  obtain ⟨v', hv'⟩ := h' {}
  rw [hv, EStateM.Result.ok.injEq] at hv'
  exact ⟨hv'.1, Workspace.stocked_inj hv'.2⟩

/-! ## A pass on two stocks -/

variable (q row) in
theorem sources_ends (hid : fits q.archive = true) (σ : Stock) :
    Ends q row .sources σ
      (.sources (Reconcile.sourceOutcome q.context.settings.sourceRules q.merge q.sources
        (σ.store.sourcesOf q.archive)))
      ⟨σ.store.afterSources q.archive q.context.settings.sourceRules q.merge q.sources,
        σ.tree⟩ := by
  intro w
  have hpass := Reconcile.sources_on hid q.context.settings.sourceRules q.merge q.verbose
    q.sources (w.withTree σ.tree) σ.store
  obtain ⟨-, htree⟩ := Reconcile.afterSource_unit q.archive q.verbose
    (Reconcile.freshSources (normalizeSources q.context.settings.sourceRules q.sources)
      (σ.store.sourcesOf q.archive)) (w.withTree σ.tree)
  rw [Workspace.on_stocked htree] at hpass
  exact ⟨_, Work.map_eq_ok.mpr ⟨_, hpass, rfl⟩⟩

theorem sources_alike (hid : fits q.archive = true) (h : Collection.sources.Same σ τ) :
    ∃ r σ', Ends q row .sources σ r σ' ∧
      Ends q row .sources τ r (Collection.sources.onto τ σ') := by
  have hτ := sources_ends q row hid τ
  rw [← h.graft, Store.afterSources_graft] at hτ
  exact ⟨_, _, sources_ends q row hid σ, hτ⟩

theorem tags_alike (h : Collection.tags.Same σ τ) :
    (∃ r σ', Ends q row .tags σ r σ' ∧ Ends q row .tags τ r (Collection.tags.onto τ σ')) ∨
      ∃ f, Fails q row .tags σ f := by
  have hcarries := Reconcile.tags_carries τ.store q.context.answers q.archive
    q.context.settings.tagRules q.tags σ.store
  rw [h.graft] at hcarries
  rcases hcarries with ⟨o, s, hok⟩ | ⟨f, s, herror⟩
  · refine Or.inl ⟨.tags o, ⟨s, σ.tree⟩, fun w => ⟨w, ?_⟩, fun w => ⟨w, ?_⟩⟩
    · exact Work.map_eq_ok.mpr ⟨o, (hok (w.withTree σ.tree)).1, rfl⟩
    · exact Work.map_eq_ok.mpr ⟨o, (hok (w.withTree τ.tree)).2, rfl⟩
  · refine Or.inr ⟨f, fun w => ⟨w.withTree σ.tree, s, ?_⟩⟩
    exact Work.map_eq_error.mpr (herror (w.withTree σ.tree)).1

/-- What a pass over images removes of the files. -/
def removed (q : FullRequest) (row : ArchiveRow) (σ : Stock) : Nat × FileTree :=
  Reconcile.removal (some q.context.files) q.context.settings.removeOnUpdate row.hash
    (Reconcile.replacedImages (Reconcile.winners q.images) (σ.store.imagesOf q.archive)) σ.tree

variable (row) in
theorem images_ends (hid : fits q.archive = true)
    (h : Reconcile.Storable q.archive q.images σ.store) :
    Ends q row .images σ
      (.images (Reconcile.imageOutcome q.images (σ.store.imagesOf q.archive) (q.removed row σ).1))
      ⟨σ.store.afterImages q.archive q.images, (q.removed row σ).2⟩ := by
  intro w
  have hpass := h.images_on hid row.hash (some q.context.files)
    q.context.settings.removeOnUpdate (w.withTree σ.tree)
  exact ⟨w, Work.map_eq_ok.mpr ⟨_, hpass, rfl⟩⟩

theorem images_fails (hid : fits q.archive = true)
    (h : ¬ Reconcile.Storable q.archive q.images σ.store) :
    ∃ f, Fails q row .images σ f := by
  have hpass (w : Workspace) := Reconcile.images_on hid row.hash (some q.context.files)
    q.context.settings.removeOnUpdate q.images (w.withTree σ.tree) σ.store
  dsimp only at hpass
  cases hput : Store.imageRefusal? (Reconcile.winners q.images) with
  | some e =>
    rw [hput] at hpass
    exact ⟨refused e, fun w => ⟨_, _, Work.map_eq_error.mpr (hpass w)⟩⟩
  | none =>
    cases hdelete : Store.pageRefusal? (Reconcile.stalePages (Reconcile.winners q.images)
        (σ.store.imagesOf q.archive)) with
    | some e =>
      rw [hput, hdelete] at hpass
      exact ⟨refused e, fun w => ⟨_, _, Work.map_eq_error.mpr (hpass w)⟩⟩
    | none => exact absurd ⟨hput, hdelete⟩ h

theorem images_alike (hid : fits q.archive = true) (h : Collection.images.Same σ τ) :
    (∃ r σ', Ends q row .images σ r σ' ∧ Ends q row .images τ r (Collection.images.onto τ σ')) ∨
      ∃ f, Fails q row .images σ f := by
  by_cases hstorable : Reconcile.Storable q.archive q.images σ.store
  · have hlist : τ.store.imagesOf q.archive = σ.store.imagesOf q.archive := by
      rw [Store.imagesOf, h.2.1]
      rfl
    have hτ : Reconcile.Storable q.archive q.images τ.store :=
      ⟨hstorable.put, hlist ▸ hstorable.delete⟩
    have hends := images_ends row hid hτ
    rw [removed, hlist, h.2.2, ← h.graft, Store.afterImages_graft] at hends
    exact Or.inl ⟨_, _, images_ends row hid hstorable, hends⟩
  · exact Or.inr (images_fails hid hstorable)

variable (row) in
/-- A pass that ends on one stock ends on all that hold the same of its collection, and leaves
the same of it there. -/
theorem pass_alike (hid : fits q.archive = true) (h : k.Same σ τ) :
    (∃ r σ', Ends q row k σ r σ' ∧ Ends q row k τ r (k.onto τ σ')) ∨
      ∃ f, Fails q row k σ f := by
  cases k with
  | sources => exact Or.inl (sources_alike hid h)
  | tags => exact tags_alike h
  | images => exact images_alike hid h

theorem Ends.not_fails {f : Failure} (h : Ends q row k σ r τ) : ¬ Fails q row k σ f := by
  intro hfails
  obtain ⟨v, hok⟩ := h {}
  obtain ⟨u, s, herror⟩ := hfails {}
  rw [hok] at herror
  cases herror

section Moves

variable (hid : fits q.archive = true) {σ' : Stock} (h : Ends q row k σ r σ')
include hid h

theorem Ends.moves (hsame : k.Same σ τ) : Ends q row k τ r (k.onto τ σ') := by
  rcases pass_alike row hid hsame with ⟨r', σ'', hσ, hτ⟩ | ⟨f, hf⟩
  · obtain ⟨rfl, rfl⟩ := h.unique hσ
    exact hτ
  · exact absurd hf h.not_fails

theorem Ends.frame : σ' = k.onto σ σ' :=
  (h.unique (h.moves hid (k.same_refl σ))).2

theorem Ends.others {j : Collection} (hj : j ≠ k) : j.Same σ σ' := by
  rw [h.frame hid]
  exact Collection.onto_others hj σ σ'

theorem Ends.archives : σ'.store.archives = σ.store.archives := by
  rw [h.frame hid]
  cases k <;> rfl

theorem Ends.row? : σ'.store.row? q.archive = σ.store.row? q.archive := by
  rw [Store.row?, h.archives hid]
  rfl

/-- Passes over two collections may change places. -/
theorem Ends.swap {j : Collection} {r' : Returned} (hj : Ends q row j σ' r' τ) (hne : j ≠ k) :
    ∃ υ, Ends q row j σ r' υ ∧ Ends q row k υ r τ := by
  have hfirst := hj.moves hid (h.others hid hne).symm
  have hsecond := h.moves hid (hfirst.others hid (Ne.symm hne))
  refine ⟨_, hfirst, ?_⟩
  have hsame : k.onto (j.onto σ τ) σ' = τ := by
    apply Collection.eq_of_same
    intro l
    by_cases hk : l = k
    · subst hk
      have harchives : σ'.store.archives = (j.onto σ τ).store.archives := by
        rw [h.archives hid, hfirst.archives hid]
      exact (Collection.onto_same harchives).symm.trans (hj.others hid (Ne.symm hne))
    · have hleft := (Collection.onto_others hk (j.onto σ τ) σ').symm
      by_cases hl : l = j
      · subst hl
        have harchives : τ.store.archives = σ.store.archives := by
          rw [hj.archives hid, h.archives hid]
        exact hleft.trans (Collection.onto_same harchives).symm
      · have hback := (hfirst.others hid hl).symm.trans (h.others hid hk)
        exact hleft.trans (hback.trans (hj.others hid hl))
  rwa [hsame] at hsecond

end Moves

/-! ## Passes one after another -/

variable (q row) in
/-- Passes over some collections return what they are said to return. -/
inductive RunsTo : List (Collection × Returned) → Stock → Stock → Prop
  | nil (σ : Stock) : RunsTo [] σ σ
  | cons {k : Collection} {r : Returned} {steps : List (Collection × Returned)} {σ τ υ : Stock}
      (first : Ends q row k σ r τ) (rest : RunsTo steps τ υ) : RunsTo ((k, r) :: steps) σ υ

variable (q row) in
/-- One of some passes fails when the ones before it have returned. -/
inductive StopsWith (f : Failure) : List Collection → Stock → Prop
  | here {k : Collection} {order : List Collection} {σ : Stock} (h : Fails q row k σ f) :
      StopsWith f (k :: order) σ
  | later {k : Collection} {r : Returned} {order : List Collection} {σ τ : Stock}
      (first : Ends q row k σ r τ) (rest : StopsWith f order τ) : StopsWith f (k :: order) σ

variable (row) in
theorem runs_or_stops (hid : fits q.archive = true) (order : List Collection) (σ : Stock) :
    (∃ steps τ, steps.map Prod.fst = order ∧ RunsTo q row steps σ τ) ∨
      ∃ f, StopsWith q row f order σ := by
  induction order generalizing σ with
  | nil => exact Or.inl ⟨[], σ, rfl, .nil σ⟩
  | cons k order ih =>
    rcases pass_alike row hid (k.same_refl σ) with ⟨r, τ, hends, -⟩ | ⟨f, hf⟩
    · rcases ih τ with ⟨steps, υ, rfl, hrest⟩ | ⟨f, hrest⟩
      · exact Or.inl ⟨(k, r) :: steps, υ, rfl, .cons hends hrest⟩
      · exact Or.inr ⟨f, .later hends hrest⟩
    · exact Or.inr ⟨f, .here hf⟩

theorem RunsTo.perm (hid : fits q.archive = true) {steps steps' : List (Collection × Returned)}
    (hperm : steps.Perm steps') (hnodup : (steps.map Prod.fst).Nodup)
    (h : RunsTo q row steps σ τ) : RunsTo q row steps' σ τ := by
  induction hperm generalizing σ with
  | nil => exact h
  | cons step _ ih =>
    cases h with
    | cons first rest => exact .cons first (ih (List.nodup_cons.mp hnodup).2 rest)
  | swap step step' steps =>
    cases h with
    | cons first rest =>
      cases rest with
      | cons second rest =>
        have hne := (List.nodup_cons.mp hnodup).1
        obtain ⟨υ, hsecond, hfirst⟩ := first.swap hid second fun h => hne (by simp [h])
        exact .cons hsecond (.cons hfirst rest)
  | trans hleft _ ih ih' =>
    exact ih' ((hleft.map Prod.fst).nodup_iff.mp hnodup) (ih hnodup h)

end Pass

/-! ## Three services -/

section Apart

variable {α : Type} {id : Int} {x : ArchiveRow → Work α} {give : α → Returned}
  {row : ArchiveRow} {w v : Workspace} {s s' : Store} {r : Returned} {f : Failure}

theorem give_ok (hid : fits id = true) (hrow : s.row? id = some row)
    (h : (give <$> x row) ((w.closedOn s).on s) = .ok r (v.on s')) :
    (give <$> Service.forArchive id x) (w.closedOn s) = .ok r (v.closedOn s') := by
  obtain ⟨a, hrun, rfl⟩ := Work.map_eq_ok.mp h
  exact Work.map_eq_ok.mpr ⟨a, Service.forArchive_ok hid hrow hrun, rfl⟩

theorem give_error (hid : fits id = true) (hrow : s.row? id = some row)
    (h : (give <$> x row) ((w.closedOn s).on s) = .error f (v.on s')) :
    ∃ u, (give <$> Service.forArchive id x) (w.closedOn s) = .error f u := by
  have hrun := (Service.onRow_on hid hrow _).trans (Work.map_eq_error.mp h)
  exact ⟨_, Work.map_eq_error.mpr (Service.inUnit_error hrun rfl rfl)⟩

variable {q : FullRequest} {k : Collection} {τ : Stock}

theorem apart_ok (hid : fits q.archive = true) (hrow : s.row? q.archive = some row)
    (h : Ends q row k ⟨s, w.tree⟩ r τ) :
    ∃ v : Workspace, (q.apart k).run (w.closedOn s) = .ok r (v.closedOn τ.store) ∧
      v.tree = τ.tree := by
  obtain ⟨v, hpass⟩ := h (w.closedOn s)
  refine ⟨v.withTree τ.tree, ?_, rfl⟩
  cases k <;> exact give_ok hid hrow hpass

theorem apart_error (hid : fits q.archive = true) (hrow : s.row? q.archive = some row)
    (h : Fails q row k ⟨s, w.tree⟩ f) : ∃ u, (q.apart k).run (w.closedOn s) = .error f u := by
  obtain ⟨v, s', hpass⟩ := h (w.closedOn s)
  cases k <;> exact give_error hid hrow hpass

theorem inTurn_cons (k : Collection) (order : List Collection) :
    q.inTurn (k :: order) = do
      let r ← (q.apart k).run
      let rs ← q.inTurn order
      return r :: rs :=
  List.mapM_cons

theorem inTurn_ok (hid : fits q.archive = true) {steps : List (Collection × Returned)}
    (hrow : s.row? q.archive = some row) (h : RunsTo q row steps ⟨s, w.tree⟩ τ) :
    ∃ v : Workspace, q.inTurn (steps.map Prod.fst) (w.closedOn s) =
      .ok (steps.map Prod.snd) (v.closedOn τ.store) ∧ v.tree = τ.tree := by
  generalize hσ : (⟨s, w.tree⟩ : Stock) = σ at h
  induction h generalizing s w with
  | nil σ =>
    subst hσ
    exact ⟨w, rfl, rfl⟩
  | cons first rest ih =>
    subst hσ
    obtain ⟨v, hrun, htree⟩ := apart_ok hid hrow first
    have hrow' := (first.row? hid).trans hrow
    obtain ⟨u, hrest, hu⟩ := ih (w := v) hrow' (by rw [htree])
    refine ⟨u, ?_, hu⟩
    rw [List.map_cons, inTurn_cons, Work.bind_of_ok hrun, Work.bind_of_ok hrest]
    rfl

theorem inTurn_error (hid : fits q.archive = true) {order : List Collection}
    (hrow : s.row? q.archive = some row) (h : StopsWith q row f order ⟨s, w.tree⟩) :
    ∃ u, q.inTurn order (w.closedOn s) = .error f u := by
  generalize hσ : (⟨s, w.tree⟩ : Stock) = σ at h
  induction h generalizing s w with
  | here hfails =>
    subst hσ
    obtain ⟨u, hrun⟩ := apart_error hid hrow hfails
    exact ⟨u, by rw [inTurn_cons, Work.bind_of_error hrun]⟩
  | later first rest ih =>
    subst hσ
    obtain ⟨v, hrun, htree⟩ := apart_ok hid hrow first
    obtain ⟨u, hrest⟩ := ih (w := v) ((first.row? hid).trans hrow) (by rw [htree])
    exact ⟨u, by rw [inTurn_cons, Work.bind_of_ok hrun, Work.bind_of_error hrest]⟩

end Apart

/-! ## One service -/

section Together

variable {q : FullRequest} {row : ArchiveRow} {w : Workspace} {s : Store} {σ τ : Stock}
  {f : Failure}

theorem optionally_ok {α β : Type} {pass : α → Work β} {a : α} {give : β → Returned}
    {w v : Workspace} {r : Returned} (h : (give <$> pass a) w = .ok r v) :
    ∃ b, Reconcile.optionally pass (some a) w = .ok (some b) v ∧ give b = r := by
  obtain ⟨b, hpass, hgive⟩ := Work.map_eq_ok.mp h
  exact ⟨b, Work.bind_of_ok hpass, hgive⟩

theorem optionally_error {α β : Type} {pass : α → Work β} {a : α} {give : β → Returned}
    {w v : Workspace} (h : (give <$> pass a) w = .error f v) :
    Reconcile.optionally pass (some a) w = .error f v :=
  Work.bind_of_error (Work.map_eq_error.mp h)

theorem passes_ok {r₁ r₂ r₃ : Returned}
    (h : RunsTo q row [(.sources, r₁), (.tags, r₂), (.images, r₃)] σ τ) (w : Workspace) :
    ∃ o v, q.reconciliation.passes row (w.stocked σ) = .ok o (Workspace.stocked v τ) ∧
      o.part .sources = some r₁ ∧ o.part .tags = some r₂ ∧ o.part .images = some r₃ := by
  rcases h with _ | ⟨hsources, _ | ⟨htags, _ | ⟨himages, ⟨⟩⟩⟩⟩
  obtain ⟨w₁, hfirst⟩ := hsources w
  obtain ⟨w₂, hsecond⟩ := htags w₁
  obtain ⟨w₃, hthird⟩ := himages w₂
  obtain ⟨o₁, hrun₁, rfl⟩ := optionally_ok hfirst
  obtain ⟨o₂, hrun₂, rfl⟩ := optionally_ok hsecond
  obtain ⟨o₃, hrun₃, rfl⟩ := optionally_ok hthird
  refine ⟨⟨q.archive, some o₁, some o₃, some o₂⟩, w₃, ?_, rfl, rfl, rfl⟩
  exact (Work.bind_of_ok hrun₁).trans ((Work.bind_of_ok hrun₂).trans (Work.bind_of_ok hrun₃))

theorem passes_error (h : StopsWith q row f [.sources, .tags, .images] σ) (w : Workspace) :
    ∃ (v : Workspace) (s : Store),
      q.reconciliation.passes row (w.stocked σ) = .error f (v.on s) := by
  rcases h with hsources | ⟨hsources, htags | ⟨htags, himages | ⟨-, ⟨⟩⟩⟩⟩
  · obtain ⟨v, s, hfirst⟩ := hsources w
    exact ⟨v, s, Work.bind_of_error (optionally_error hfirst)⟩
  · obtain ⟨w₁, hfirst⟩ := hsources w
    obtain ⟨v, s, hsecond⟩ := htags w₁
    obtain ⟨o₁, hrun₁, -⟩ := optionally_ok hfirst
    exact ⟨v, s, (Work.bind_of_ok hrun₁).trans (Work.bind_of_error (optionally_error hsecond))⟩
  · obtain ⟨w₁, hfirst⟩ := hsources w
    obtain ⟨w₂, hsecond⟩ := htags w₁
    obtain ⟨v, s, hthird⟩ := himages w₂
    obtain ⟨o₁, hrun₁, -⟩ := optionally_ok hfirst
    obtain ⟨o₂, hrun₂, -⟩ := optionally_ok hsecond
    exact ⟨v, s, (Work.bind_of_ok hrun₁).trans
      ((Work.bind_of_ok hrun₂).trans (Work.bind_of_error (optionally_error hthird)))⟩

theorem together_ok (hid : fits q.archive = true) (hrow : s.row? q.archive = some row)
    {r₁ r₂ r₃ : Returned}
    (h : RunsTo q row [(.sources, r₁), (.tags, r₂), (.images, r₃)] ⟨s, w.tree⟩ τ) :
    ∃ o v, q.together.run (w.closedOn s) = .ok (.all o) v ∧
      v.unit = .closed τ.store ∧ v.tree = τ.tree ∧
      o.part .sources = some r₁ ∧ o.part .tags = some r₂ ∧ o.part .images = some r₃ := by
  obtain ⟨o, v, hpasses, hparts⟩ := passes_ok h (q.reconciliation.begun w s)
  exact ⟨o, _, Reconciliation.run_ok hid hrow hpasses, rfl, rfl, hparts⟩

theorem together_error (hid : fits q.archive = true) (hrow : s.row? q.archive = some row)
    (h : StopsWith q row f [.sources, .tags, .images] ⟨s, w.tree⟩) :
    ∃ u, q.together.run (w.closedOn s) = .error f u := by
  obtain ⟨v, s', hpasses⟩ := passes_error h (q.reconciliation.begun w s)
  exact Reconciliation.run_error hid hrow hpasses

theorem missing (q : FullRequest) (h : ¬ (fits q.archive = true ∧ (s.row? q.archive).isSome)) :
    ∃ f, (∀ k (w : Workspace), ∃ u, (q.apart k).run (w.closedOn s) = .error f u) ∧
      ∀ w : Workspace, ∃ u, q.together.run (w.closedOn s) = .error f u := by
  obtain ⟨f, hmissing⟩ := Service.onRow_missing h
  have hservice {α : Type} (x : ArchiveRow → Work α) (w : Workspace) :
      ∃ u, Service.forArchive q.archive x (w.closedOn s) = .error f u :=
    ⟨_, Service.inUnit_error (hmissing x _) rfl rfl⟩
  refine ⟨f, fun k w => ?_, fun w => ?_⟩
  · cases k <;>
    · obtain ⟨u, hrun⟩ := hservice _ w
      exact ⟨u, Work.map_eq_error.mpr hrun⟩
  · obtain ⟨u, hrun⟩ := hservice _ (q.reconciliation.begun w s)
    exact ⟨u, Reconciliation.run_of_service hrun⟩

end Together

/-! ## All orders -/

section Orders

variable {q : FullRequest} {row : ArchiveRow} {order : List Collection} {w u : Workspace}
  {s : Store} {σ τ : Stock} {steps : List (Collection × Returned)}

theorem RunsTo.sorted (hid : fits q.archive = true)
    (horder : (steps.map Prod.fst).Perm [.sources, .tags, .images])
    (h : RunsTo q row steps σ τ) :
    ∃ r₁ r₂ r₃, steps.Perm [(.sources, r₁), (.tags, r₂), (.images, r₃)] ∧
      RunsTo q row [(.sources, r₁), (.tags, r₂), (.images, r₃)] σ τ := by
  have hnodup : (steps.map Prod.fst).Nodup := horder.nodup_iff.mpr (by decide)
  have hpaired : List.Forall₂ (fun k step => k = step.1) (steps.map Prod.fst) steps := by
    rw [List.forall₂_map_left_iff, List.forall₂_same]
    exact fun _ _ => rfl
  obtain ⟨sorted, hsorted, hperm⟩ := List.perm_comp_forall₂ horder.symm hpaired
  rcases hsorted with _ | ⟨hfirst, _ | ⟨hsecond, _ | ⟨hthird, ⟨⟩⟩⟩⟩
  next first second third =>
    obtain ⟨_, r₁⟩ := first
    obtain ⟨_, r₂⟩ := second
    obtain ⟨_, r₃⟩ := third
    cases hfirst
    cases hsecond
    cases hthird
    exact ⟨r₁, r₂, r₃, hperm.symm, h.perm hid hperm.symm hnodup⟩

theorem inTurn_missing {f : Failure} (hne : order ≠ [])
    (h : ∀ k (w : Workspace), ∃ u, (q.apart k).run (w.closedOn s) = .error f u) :
    ∃ u, q.inTurn order (w.closedOn s) = .error f u := by
  cases order with
  | nil => exact absurd rfl hne
  | cons k order =>
    obtain ⟨u, hrun⟩ := h k w
    exact ⟨u, by rw [inTurn_cons, Work.bind_of_error hrun]⟩

/-- What the three services do in any order, the one service does. -/
theorem together_of_runs (hid : fits q.archive = true) (hrow : s.row? q.archive = some row)
    (horder : (steps.map Prod.fst).Perm [.sources, .tags, .images])
    (h : RunsTo q row steps ⟨s, w.tree⟩ τ) :
    ∃ o v, q.together.run (w.closedOn s) = .ok (.all o) v ∧
      (steps.map Prod.fst).map o.part = (steps.map Prod.snd).map some ∧
      v.unit = .closed τ.store ∧ v.tree = τ.tree := by
  obtain ⟨r₁, r₂, r₃, hperm, hsorted⟩ := h.sorted hid horder
  obtain ⟨o, v, hrun, hunit, htree, hsources, htags, himages⟩ := together_ok hid hrow hsorted
  refine ⟨o, v, hrun, ?_, hunit, htree⟩
  rw [List.map_map, List.map_map]
  apply List.map_congr_left
  intro step hstep
  have hmem := hperm.subset hstep
  simp only [List.mem_cons, List.not_mem_nil, or_false] at hmem
  rcases hmem with rfl | rfl | rfl
  · exact hsources
  · exact htags
  · exact himages

section Row

variable (hid : fits q.archive = true) (hrow : s.row? q.archive = some row)
include hid hrow

/-- Services that return one after another have done their passes one after another. -/
theorem inTurn_runs {rs : List Returned} (h : q.inTurn order (w.closedOn s) = .ok rs u) :
    ∃ steps τ, steps.map Prod.fst = order ∧ steps.map Prod.snd = rs ∧
      RunsTo q row steps ⟨s, w.tree⟩ τ ∧ u.unit = .closed τ.store ∧ u.tree = τ.tree := by
  rcases runs_or_stops row hid order ⟨s, w.tree⟩ with ⟨steps, τ, rfl, hruns⟩ | ⟨f, hstops⟩
  · obtain ⟨v, hrun, htree⟩ := inTurn_ok hid hrow hruns
    rw [h, EStateM.Result.ok.injEq] at hrun
    obtain ⟨rfl, rfl⟩ := hrun
    exact ⟨steps, τ, rfl, rfl, hruns, rfl, htree⟩
  · obtain ⟨v, hrun⟩ := inTurn_error hid hrow hstops
    rw [h] at hrun
    cases hrun

theorem stops_of_together {f : Failure} (horder : order.Perm [.sources, .tags, .images])
    (h : q.together.run (w.closedOn s) = .error f u) :
    ∃ f', StopsWith q row f' order ⟨s, w.tree⟩ := by
  rcases runs_or_stops row hid order ⟨s, w.tree⟩ with ⟨steps, τ, rfl, hruns⟩ | hstops
  · obtain ⟨o, v, hrun, -⟩ := together_of_runs hid hrow horder hruns
    rw [h] at hrun
    cases hrun
  · exact hstops

/-- In the order of the one service the first failing pass is the same. -/
theorem inTurn_first_failure {f : Failure} (h : q.together.run (w.closedOn s) = .error f u) :
    ∃ v, q.inTurn [.sources, .tags, .images] (w.closedOn s) = .error f v := by
  obtain ⟨f', hstops⟩ := stops_of_together hid hrow (List.Perm.refl _) h
  obtain ⟨v, hrun⟩ := together_error hid hrow hstops
  rw [h, EStateM.Result.error.injEq] at hrun
  obtain ⟨rfl, -⟩ := hrun
  exact inTurn_error hid hrow hstops

end Row

/-- When the services for the three collections return, called in any order one after another,
the service for all of them returns the same parts and leaves the same rows and files. When it
fails, one of the three fails in every order, and in its own order with the same failure. -/
theorem together_agrees_apart (q : FullRequest) (w : Workspace) (s : Store)
    (order : List Collection) (horder : order.Perm [.sources, .tags, .images]) :
    (∀ rs u, q.inTurn order (w.closedOn s) = .ok rs u →
      ∃ o v, q.together.run (w.closedOn s) = .ok (.all o) v ∧
        order.map o.part = rs.map some ∧ v.unit = u.unit ∧ v.tree = u.tree) ∧
    ∀ f v, q.together.run (w.closedOn s) = .error f v →
      (∃ f' u, q.inTurn order (w.closedOn s) = .error f' u) ∧
      ∃ u, q.inTurn [.sources, .tags, .images] (w.closedOn s) = .error f u := by
  by_cases hfound : fits q.archive = true ∧ (s.row? q.archive).isSome
  · obtain ⟨hid, hsome⟩ := hfound
    obtain ⟨row, hrow⟩ := Option.isSome_iff_exists.mp hsome
    constructor
    · intro rs u hturn
      obtain ⟨steps, τ, rfl, rfl, hruns, hunit, htree⟩ := inTurn_runs hid hrow hturn
      obtain ⟨o, v, hrun, hparts, hunit', htree'⟩ := together_of_runs hid hrow horder hruns
      exact ⟨o, v, hrun, hparts, hunit'.trans hunit.symm, htree'.trans htree.symm⟩
    · intro f v hrun
      obtain ⟨f', hstops⟩ := stops_of_together hid hrow horder hrun
      exact ⟨⟨f', inTurn_error hid hrow hstops⟩, inTurn_first_failure hid hrow hrun⟩
  · obtain ⟨f, hapart, htogether⟩ := missing q hfound
    have hne : order ≠ [] := by
      rintro rfl
      simp at horder
    constructor
    · intro rs u hturn
      obtain ⟨u', hrun⟩ := inTurn_missing (w := w) hne hapart
      rw [hturn] at hrun
      cases hrun
    · intro f' v hrun
      obtain ⟨v', hrun'⟩ := htogether w
      rw [hrun, EStateM.Result.error.injEq] at hrun'
      obtain ⟨rfl, -⟩ := hrun'
      exact ⟨⟨f', inTurn_missing hne hapart⟩, inTurn_missing (by simp) hapart⟩

/-- The sample metadata for the first archive. -/
def sample : FullRequest where
  context := .sample
  archive := 1
  sources := [⟨some "site", none⟩, ⟨none, some "site/1"⟩]
  images := [⟨"1.png", 1, none, none⟩, ⟨"1.jpg", 1, some 800, none⟩]
  tags := [⟨"", "blue"⟩]

theorem sample_agrees_apart : ∃ rs u o v,
    inTurn .sample [.images, .tags, .sources] (Workspace.closedOn {} .withFirst) = .ok rs u ∧
      (together .sample).run (Workspace.closedOn {} .withFirst) = .ok (.all o) v ∧
      [Collection.images, .tags, .sources].map o.part = rs.map some ∧
      v.unit = u.unit ∧ v.tree = u.tree := by
  obtain ⟨rs, u, hturn⟩ := Work.eq_ok_of_returns
    (x := inTurn .sample [.images, .tags, .sources]) (w := Workspace.closedOn {} .withFirst)
    (by decide +kernel)
  obtain ⟨o, v, hrun, hagree⟩ := (together_agrees_apart .sample {} .withFirst
    [.images, .tags, .sources] (by decide)).1 rs u hturn
  exact ⟨rs, u, o, v, hturn, hrun, hagree⟩

end Orders

end FullRequest

end GalleryCatalog
