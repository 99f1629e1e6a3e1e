import GalleryCatalog.Proofs.Call

/-!
# Passes keep to themselves

An archive has three collections, and each has tables of its own. A pass sees the rows of
its collection and of archives and no others, and it changes the rows of its collection. Page
files go with images. So what the other tables hold makes no difference to a pass and is
still there after it.
-/

set_option autoImplicit false

namespace GalleryCatalog

open Service (Context)

/-- What the metadata of an archive has lists of. -/
inductive Collection where
  | sources
  | tags
  | images
  deriving DecidableEq, Repr

/-- What passes work on. -/
structure Stock where
  store : Store
  tree : FileTree

def Workspace.stocked (w : Workspace) (σ : Stock) : Workspace :=
  (w.withTree σ.tree).on σ.store

theorem Workspace.stocked_inj {w v : Workspace} {σ τ : Stock} (h : w.stocked σ = v.stocked τ) :
    σ = τ := by
  rcases σ with ⟨s, t⟩
  rcases τ with ⟨s', t'⟩
  have hstore : s = s' := on_store h
  have htree : t = t' := congrArg Workspace.tree h
  rw [hstore, htree]

theorem Workspace.on_stocked {w : Workspace} {t : FileTree} (h : w.tree = t) (s : Store) :
    w.on s = w.stocked ⟨s, t⟩ := by
  subst h
  rfl

namespace Collection

/-- The first store with one collection of the second. -/
def graft : Collection → Store → Store → Store
  | .sources, t, s => { t with sources := s.sources }
  | .tags, t, s => { t with tags := s.tags, links := s.links }
  | .images, t, s => { t with images := s.images }

/-- The first stock with one collection of the second, images with their files. -/
def onto (k : Collection) (τ σ : Stock) : Stock where
  store := k.graft τ.store σ.store
  tree := if k = .images then σ.tree else τ.tree

/-- Two stocks hold the same archives and the same of one collection. -/
def Same : Collection → Stock → Stock → Prop
  | .sources, σ, τ => τ.store.archives = σ.store.archives ∧ τ.store.sources = σ.store.sources
  | .tags, σ, τ => τ.store.archives = σ.store.archives ∧ τ.store.tags = σ.store.tags ∧
      τ.store.links = σ.store.links
  | .images, σ, τ => τ.store.archives = σ.store.archives ∧ τ.store.images = σ.store.images ∧
      τ.tree = σ.tree

variable {j k : Collection} {σ τ υ : Stock}

theorem same_refl (k : Collection) (σ : Stock) : k.Same σ σ := by
  cases k <;> simp [Same]

theorem Same.symm (h : k.Same σ τ) : k.Same τ σ := by
  cases k <;> simp_all [Same]

theorem Same.trans (h₁ : k.Same σ τ) (h₂ : k.Same τ υ) : k.Same σ υ := by
  cases k <;> simp_all [Same]

theorem Same.archives (h : k.Same σ τ) : τ.store.archives = σ.store.archives := by
  cases k <;> exact h.1

theorem Same.graft (h : k.Same σ τ) : k.graft τ.store σ.store = τ.store := by
  cases k <;> simp [Collection.graft, ← h.2]

theorem onto_same (h : υ.store.archives = τ.store.archives) : k.Same υ (k.onto τ υ) := by
  cases k <;> simp [Same, onto, Collection.graft, h]

theorem onto_others (h : j ≠ k) (τ υ : Stock) : j.Same τ (k.onto τ υ) := by
  cases k <;> cases j <;> simp_all [Same, onto, Collection.graft]

theorem eq_of_same (h : ∀ k : Collection, k.Same σ τ) : σ = τ := by
  rcases σ with ⟨⟨a, s, i, t, l⟩, f⟩
  rcases τ with ⟨⟨a', s', i', t', l'⟩, f'⟩
  have hsources := h .sources
  have htags := h .tags
  have himages := h .images
  simp_all [Same]

end Collection

/-! ## Steps that carry other tables along -/

section Carry

variable {ε ε' σ τ α β : Type}

/-- A result with its state changed. -/
def Work.over (g : σ → τ) : EStateM.Result ε σ α → EStateM.Result ε τ α
  | .ok a s => .ok a (g s)
  | .error e s => .error e (g s)

/-- A statement does the same on a changed store, and leaves the change. -/
def Statement.Carries (g : Store → Store) (x : Statement α) : Prop :=
  ∀ s, x (g s) = Work.over g (x s)

variable {g : Store → Store}

theorem Statement.bind_carries {x : Statement α} {f : α → Statement β} (hx : Carries g x)
    (hf : ∀ a, Carries g (f a)) : Carries g (x >>= f) := by
  intro s
  have hs := hx s
  cases h : x s with
  | ok a s' =>
    rw [h] at hs
    rw [Work.bind_of_ok h, Work.bind_of_ok hs]
    exact hf a s'
  | error e s' =>
    rw [h] at hs
    rw [Work.bind_of_error h, Work.bind_of_error hs]
    rfl

theorem Statement.requireFits_carries (ns : List Int) : Carries g (requireFits ns) := by
  intro s
  unfold requireFits
  split_ifs <;> rfl

theorem Statement.requireParameters_carries (n : Nat) : Carries g (requireParameters n) := by
  intro s
  unfold requireParameters
  split_ifs <;> rfl

theorem Statement.forM_carries {step : α → Statement Unit} (h : ∀ a, Carries g (step a))
    (xs : List α) : Carries g (xs.forM step) := by
  induction xs with
  | nil => exact fun _ => rfl
  | cons a xs ih => exact bind_carries (h a) fun _ => ih

namespace Work

/-- Work sees nothing but the store, does the same on a changed one, and leaves the change. -/
def Carries (g : Store → Store) (x : Work α) : Prop :=
  ∀ s, (∃ a s', ∀ w : Workspace, x (w.on s) = .ok a (w.on s') ∧
      x (w.on (g s)) = .ok a (w.on (g s'))) ∨
    ∃ f s', ∀ w : Workspace, x (w.on s) = .error f (w.on s') ∧
      x (w.on (g s)) = .error f (w.on (g s'))

theorem pure_carries (a : α) : Carries g (pure a : Work α) :=
  fun s => Or.inl ⟨a, s, fun _ => ⟨rfl, rfl⟩⟩

theorem throw_carries (f : Failure) : Carries g (throw f : Work α) :=
  fun s => Or.inr ⟨f, s, fun _ => ⟨rfl, rfl⟩⟩

theorem bind_carries {x : Work α} {y : α → Work β} (hx : Carries g x)
    (hy : ∀ a, Carries g (y a)) : Carries g (x >>= y) := by
  intro s
  rcases hx s with ⟨a, s₁, hok⟩ | ⟨f, s₁, herror⟩
  · rcases hy a s₁ with ⟨b, s₂, hrest⟩ | ⟨f, s₂, hrest⟩
    · refine Or.inl ⟨b, s₂, fun w => ?_⟩
      rw [bind_of_ok (hok w).1, bind_of_ok (hok w).2]
      exact hrest w
    · refine Or.inr ⟨f, s₂, fun w => ?_⟩
      rw [bind_of_ok (hok w).1, bind_of_ok (hok w).2]
      exact hrest w
  · refine Or.inr ⟨f, s₁, fun w => ?_⟩
    rw [bind_of_error (herror w).1, bind_of_error (herror w).2]
    exact ⟨rfl, rfl⟩

theorem forM_carries {step : α → Work Unit} (h : ∀ a, Carries g (step a)) (xs : List α) :
    Carries g (xs.forM step) := by
  induction xs with
  | nil => exact pure_carries ()
  | cons a xs ih => exact bind_carries (h a) fun _ => ih

theorem access_carries {x : Statement α} (h : x.Carries g) : Carries g (access x.onView) := by
  intro s
  have hs := h s
  cases hx : x s with
  | ok a s' =>
    rw [hx] at hs
    exact Or.inl ⟨a, s', fun w => ⟨access_ok hx w, access_ok hs w⟩⟩
  | error e s' =>
    rw [hx] at hs
    exact Or.inr ⟨_, s', fun w => ⟨access_error hx w, access_error hs w⟩⟩

theorem access_pure_carries (a : α) : Carries g (access (pure a)) :=
  fun s => Or.inl ⟨a, s, fun _ => ⟨rfl, rfl⟩⟩

end Work

end Carry

/-! ## Tags -/

namespace Store

variable (t : Store)

theorem putTag_graft (u : Tag) (s : Store) :
    putTag u (Collection.tags.graft t s) =
      ((putTag u s).1, Collection.tags.graft t (putTag u s).2) := by
  have hfind : (Collection.tags.graft t s).tags.find? (fun r => r.tag = u) =
      s.tags.find? fun r => r.tag = u := rfl
  unfold putTag
  rw [hfind]
  cases s.tags.find? fun r => r.tag = u <;> rfl

theorem putTags_graft (tags : List Tag) (s : Store) :
    putTags tags (Collection.tags.graft t s) =
      ((putTags tags s).1, Collection.tags.graft t (putTags tags s).2) := by
  induction tags generalizing s with
  | nil => rfl
  | cons u tags ih => simp only [putTags, putTag_graft, ih]

theorem findTags_carries (wanted : List Tag) :
    (findTags wanted).Carries (Collection.tags.graft t) :=
  Statement.bind_carries (Statement.requireParameters_carries _) fun _ _ => rfl

theorem upsertTags_carries (tags : List Tag) :
    (upsertTags tags).Carries (Collection.tags.graft t) := by
  apply Statement.bind_carries (Statement.requireParameters_carries _)
  intro _ s
  have hrun (s : Store) : (modifyGet (putTags tags) : Statement (List TagRow)) s =
      .ok (putTags tags s).1 (putTags tags s).2 := rfl
  rw [hrun, hrun, putTags_graft]
  rfl

theorem listLinks_carries (archive : Int) :
    (listLinks archive).Carries (Collection.tags.graft t) :=
  Statement.bind_carries (Statement.requireFits_carries _) fun _ _ => rfl

theorem deleteLink_carries (archive tag : Int) :
    (deleteLink archive tag).Carries (Collection.tags.graft t) :=
  Statement.bind_carries (Statement.requireFits_carries _) fun _ _ => rfl

theorem addLink_carries (archive tag : Int) :
    (addLink archive tag).Carries (Collection.tags.graft t) := by
  apply Statement.bind_carries (Statement.requireFits_carries _)
  intro _ s
  have hlinks : (Collection.tags.graft t s).links = s.links := rfl
  rw [Work.get_bind_apply, Work.get_bind_apply, hlinks]
  split_ifs <;> rfl

end Store

namespace Reconcile

open Work (Carries)

section Tags

variable (t : Store) (answers : TagAnswers) (id : Int)

theorem lookUp_carries (wanted : List Tag) :
    Carries (Collection.tags.graft t) (lookUp answers wanted) := by
  have hfind : Carries (Collection.tags.graft t) (Work.access (Repository.findTags wanted)) := by
    unfold Repository.findTags
    split_ifs
    · exact Work.access_pure_carries []
    · exact Work.access_carries (Store.findTags_carries t wanted)
  exact Work.bind_carries hfind fun _ => Work.pure_carries _

theorem upsert_carries (missing : List Tag) :
    Carries (Collection.tags.graft t) (upsert answers missing) := by
  have hput : Carries (Collection.tags.graft t) (Work.access (Repository.upsertTags missing)) := by
    unfold Repository.upsertTags
    split_ifs
    · exact Work.access_pure_carries []
    · exact Work.access_carries (Store.upsertTags_carries t missing)
  exact Work.bind_carries hput fun _ => Work.pure_carries _

theorem idsOf_carries (known : List TagRow) (wanted : List Tag) :
    Carries (Collection.tags.graft t) (idsOf id known wanted) := by
  induction wanted with
  | nil => exact Work.pure_carries []
  | cons u wanted ih =>
    unfold idsOf
    split
    · exact Work.throw_carries _
    · exact Work.bind_carries ih fun _ => Work.pure_carries _

theorem addLinks_carries (ids : List Int) :
    Carries (Collection.tags.graft t) (Work.access (Repository.addLinks id ids)) := by
  unfold Repository.addLinks
  split_ifs
  · exact Work.access_pure_carries ()
  · exact Work.access_carries (Statement.forM_carries (Store.addLink_carries t id) ids)

theorem tags_carries (rules : List TagRule) (incoming : List Tag) :
    Carries (Collection.tags.graft t) (tags answers id rules incoming) := by
  apply Work.bind_carries (lookUp_carries t answers _)
  intro found
  apply Work.bind_carries (upsert_carries t answers _)
  intro added
  apply Work.bind_carries (Work.access_carries (Store.listLinks_carries t id))
  intro links
  apply Work.bind_carries (Work.forM_carries
    (fun (l : TagRow) => Work.access_carries (Store.deleteLink_carries t id l.id)) _)
  intro _
  apply Work.bind_carries (idsOf_carries t id _ _)
  intro ids
  apply Work.bind_carries (addLinks_carries t id ids)
  intro _
  exact Work.pure_carries _

end Tags

end Reconcile

/-! ## Sources and images -/

namespace Store

variable (t s : Store)

theorem afterSources_graft (id : Int) (rules : List SourceRule) (merge : Bool)
    (incoming : List Source) :
    (Collection.sources.graft t s).afterSources id rules merge incoming =
      Collection.sources.graft t (s.afterSources id rules merge incoming) := by
  have hdelete (xs : List Source) (s : Store) :
      xs.foldl (withoutSource id) (Collection.sources.graft t s) =
        Collection.sources.graft t (xs.foldl (withoutSource id) s) :=
    List.foldl_hom _ fun _ _ => rfl
  have hstore (xs : List Source) (s : Store) :
      xs.foldl (withSource id) (Collection.sources.graft t s) =
        Collection.sources.graft t (xs.foldl (withSource id) s) :=
    List.foldl_hom _ fun _ _ => rfl
  have hlist : (Collection.sources.graft t s).sourcesOf id = s.sourcesOf id := rfl
  unfold afterSources
  rw [hlist]
  dsimp only
  rw [hdelete, hstore]

theorem afterImages_graft (id : Int) (incoming : List Image) :
    (Collection.images.graft t s).afterImages id incoming =
      Collection.images.graft t (s.afterImages id incoming) := by
  have hput (s : Store) (i : Image) : (Collection.images.graft t s).withImage id i =
      Collection.images.graft t (s.withImage id i) := by
    have hfind : (Collection.images.graft t s).images.find? (·.isPage id i.page) =
        s.images.find? (·.isPage id i.page) := rfl
    unfold withImage putImage
    rw [hfind]
    cases s.images.find? (·.isPage id i.page) <;> rfl
  have hputs : (Reconcile.winners incoming).foldl (withImage id) (Collection.images.graft t s) =
      Collection.images.graft t ((Reconcile.winners incoming).foldl (withImage id) s) :=
    List.foldl_hom _ hput
  have hlist : (Collection.images.graft t s).imagesOf id = s.imagesOf id := rfl
  unfold afterImages
  rw [hlist]
  dsimp only
  rw [hputs]
  rfl

end Store

end GalleryCatalog
