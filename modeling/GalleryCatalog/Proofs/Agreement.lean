import GalleryCatalog.Proofs.Call

/-!
# What services see

A service sees the store and not the files, the keys that were reported or the notices.
Run on the same unit of work, and with the same errors of the database, it ends alike, with
the same store, whatever those are. What it gives back may differ only in the number of files
that it has removed.
-/

set_option autoImplicit false

namespace GalleryCatalog

namespace Work

variable {α β γ δ : Type}

/-- The same unit of work, for which the database has the same errors. -/
def SameUnit (w v : Workspace) : Prop :=
  w.unit = v.unit ∧ w.troubles = v.troubles

/-- Two runs end alike, with related values or the same failure, on the same unit. -/
def EndsAlike (R : α → β → Prop) :
    EStateM.Result Failure Workspace α → EStateM.Result Failure Workspace β → Prop
  | .ok a w, .ok b v => R a b ∧ SameUnit w v
  | .error e w, .error f v => e = f ∧ SameUnit w v
  | _, _ => False

/-- From the same unit of work both end alike. -/
def Agrees (R : α → β → Prop) (x : Work α) (y : Work β) : Prop :=
  ∀ w v : Workspace, SameUnit w v → EndsAlike R (x w) (y v)

theorem Agrees.ok {R : α → β → Prop} {x : Work α} {y : Work β} (h : Agrees R x y)
    {w v w' : Workspace} (hunit : SameUnit w v) {a : α} (hx : x w = .ok a w') :
    ∃ b v', y v = .ok b v' ∧ R a b ∧ SameUnit w' v' := by
  have hends := h w v hunit
  rw [hx] at hends
  cases hy : y v with
  | ok b v' =>
    rw [hy] at hends
    exact ⟨b, v', rfl, hends.1, hends.2⟩
  | error f v' => rw [hy] at hends; exact hends.elim

theorem pure_agrees {R : α → β → Prop} {a : α} {b : β} (h : R a b) :
    Agrees R (pure a) (pure b) :=
  fun _ _ hunit => ⟨h, hunit⟩

theorem throw_agrees (R : α → β → Prop) (e : Failure) :
    Agrees R (throw e : Work α) (throw e : Work β) :=
  fun _ _ hunit => ⟨rfl, hunit⟩

theorem bind_agrees {S : α → β → Prop} {R : γ → δ → Prop} {x : Work α} {y : Work β}
    {f : α → Work γ} {g : β → Work δ} (hx : Agrees S x y)
    (hf : ∀ a b, S a b → Agrees R (f a) (g b)) : Agrees R (x >>= f) (y >>= g) := by
  intro w v hunit
  have hends := hx w v hunit
  cases hxw : x w with
  | ok a w' =>
    cases hyv : y v with
    | ok b v' =>
      rw [hxw, hyv] at hends
      rw [bind_of_ok hxw, bind_of_ok hyv]
      exact hf a b hends.1 w' v' hends.2
    | error e v' => rw [hxw, hyv] at hends; exact hends.elim
  | error e w' =>
    cases hyv : y v with
    | ok b v' => rw [hxw, hyv] at hends; exact hends.elim
    | error e' v' =>
      rw [hxw, hyv] at hends
      rw [bind_of_error hxw, bind_of_error hyv]
      exact hends

theorem map_agrees {S : α → β → Prop} {R : γ → δ → Prop} {x : Work α} {y : Work β}
    {k : α → γ} {k' : β → δ} (hx : Agrees S x y) (hk : ∀ a b, S a b → R (k a) (k' b)) :
    Agrees R (k <$> x) (k' <$> y) := by
  rw [map_eq_pure_bind, map_eq_pure_bind]
  exact bind_agrees hx fun a b hab => pure_agrees (hk a b hab)

theorem ofUnit_agrees (x : UnitStep α) : Agrees Eq (ofUnit x) (ofUnit x) := by
  intro w v hunit
  unfold ofUnit
  rw [hunit.1]
  cases x v.unit <;> exact ⟨rfl, rfl, hunit.2⟩

theorem ofDatabase_agrees (x : UnitStep α) : Agrees Eq (ofDatabase x) (ofDatabase x) := by
  intro w v hunit
  unfold ofDatabase
  rw [hunit.1, hunit.2]
  split
  · exact ⟨rfl, rfl, rfl⟩
  · exact ofUnit_agrees x _ _ ⟨rfl, rfl⟩
  · exact ofUnit_agrees x w v hunit

theorem access_agrees (x : Access α) : Agrees Eq (access x) (access x) :=
  ofDatabase_agrees _

theorem notify_agrees (n n' : Notice) : Agrees Eq (notify n) (notify n') :=
  fun _ _ hunit => ⟨rfl, hunit⟩

theorem bind_same_agrees {R : γ → δ → Prop} {x y : Work α} {f : α → Work γ} {g : α → Work δ}
    (hx : Agrees Eq x y) (hf : ∀ a, Agrees R (f a) (g a)) : Agrees R (x >>= f) (y >>= g) := by
  apply bind_agrees hx
  rintro a b rfl
  exact hf a

theorem forM_agrees {step : α → Work Unit} (h : ∀ a, Agrees Eq (step a) (step a))
    (xs : List α) : Agrees Eq (xs.forM step) (xs.forM step) := by
  induction xs with
  | nil => exact pure_agrees rfl
  | cons a xs ih => exact bind_same_agrees (h a) fun _ => ih

/-- The last step is done in any case, and its failure comes before one of the work. -/
theorem finally_agrees {R : α → β → Prop} {x : Work α} {y : Work β} {last : Work Unit}
    (hx : Agrees R x y) (hlast : Agrees Eq last last) :
    Agrees R (tryFinally x last) (tryFinally y last) := by
  intro w v hunit
  have hends := hx w v hunit
  cases hxw : x w with
  | ok a w' =>
    cases hyv : y v with
    | ok b v' =>
      rw [hxw, hyv] at hends
      rw [finally_of_ok hxw, finally_of_ok hyv]
      exact bind_same_agrees hlast (fun _ => pure_agrees hends.1) w' v' hends.2
    | error e v' => rw [hxw, hyv] at hends; exact hends.elim
  | error e w' =>
    cases hyv : y v with
    | ok b v' => rw [hxw, hyv] at hends; exact hends.elim
    | error e' v' =>
      rw [hxw, hyv] at hends
      obtain rfl := hends.1
      rw [finally_of_error hxw, finally_of_error hyv]
      exact bind_same_agrees hlast (fun _ => throw_agrees R e) w' v' hends.2

end Work

open Work (Agrees)

/-- An outcome without what became of files. -/
def ImageOutcome.rows (o : ImageOutcome) : ImageOutcome :=
  { o with removedFiles := 0 }

def ArchiveOutcome.rows (o : ArchiveOutcome) : ArchiveOutcome :=
  { o with images := o.images.map ImageOutcome.rows }

def Returned.rows : Returned → Returned
  | .images o => .images o.rows
  | .all o => .all o.rows
  | r => r

namespace Reconcile

/-! ## Passes -/

theorem sources_agrees (id : Int) (rules : List SourceRule) (merge verbose : Bool)
    (incoming : List Source) :
    Agrees Eq (sources id rules merge verbose incoming)
      (sources id rules merge verbose incoming) := by
  have hstore (x : Source) : Agrees Eq (storeSource id verbose x) (storeSource id verbose x) := by
    unfold storeSource
    split_ifs
    · exact Work.access_agrees _
    · exact Work.notify_agrees _ _
    · exact Work.pure_agrees rfl
  apply Work.bind_same_agrees (Work.access_agrees _)
  intro current
  apply Work.bind_same_agrees (Work.forM_agrees (fun _ => Work.access_agrees _) _)
  intro _
  apply Work.bind_same_agrees (Work.forM_agrees hstore _)
  intro _
  exact Work.pure_agrees rfl

theorem idsOf_agrees (id : Int) (known : List TagRow) (tags : List Tag) :
    Agrees Eq (idsOf id known tags) (idsOf id known tags) := by
  induction tags with
  | nil => exact Work.pure_agrees rfl
  | cons t tags ih =>
    unfold idsOf
    split
    · exact Work.throw_agrees _ _
    · apply Work.bind_same_agrees ih
      intro ids
      exact Work.pure_agrees rfl

theorem tags_agrees (answers : TagAnswers) (id : Int) (rules : List TagRule)
    (incoming : List Tag) :
    Agrees Eq (tags answers id rules incoming) (tags answers id rules incoming) := by
  have hlookUp (ts : List Tag) : Agrees Eq (lookUp answers ts) (lookUp answers ts) :=
    Work.bind_same_agrees (Work.access_agrees _) fun _ => Work.pure_agrees rfl
  have hupsert (ts : List Tag) : Agrees Eq (upsert answers ts) (upsert answers ts) :=
    Work.bind_same_agrees (Work.access_agrees _) fun _ => Work.pure_agrees rfl
  apply Work.bind_same_agrees (hlookUp _)
  intro found
  apply Work.bind_same_agrees (hupsert _)
  intro added
  apply Work.bind_same_agrees (Work.access_agrees _)
  intro linked
  apply Work.bind_same_agrees (Work.forM_agrees (fun _ => Work.access_agrees _) _)
  intro _
  apply Work.bind_same_agrees (idsOf_agrees id _ _)
  intro ids
  apply Work.bind_same_agrees (Work.access_agrees _)
  intro _
  exact Work.pure_agrees rfl

/-- A pass over images ends alike whether or not files are removed, and from where. -/
theorem images_agrees_apart (id : Int) (hash hash' : String)
    (files files' : Option PageFile.Directory) (removeOnUpdate removeOnUpdate' : Bool)
    (incoming : List Image) :
    Agrees (fun o o' => o.rows = o'.rows) (images id hash files removeOnUpdate incoming)
      (images id hash' files' removeOnUpdate' incoming) := by
  have hremove (replaced : List Image) : Agrees (fun _ _ => True)
      (removeReplaced files removeOnUpdate hash replaced)
      (removeReplaced files' removeOnUpdate' hash' replaced) := by
    intro w v hunit
    rw [removeReplaced_run, removeReplaced_run]
    exact ⟨trivial, hunit⟩
  apply Work.bind_same_agrees (Work.access_agrees _)
  intro current
  apply Work.bind_agrees (hremove _)
  intro removed removed' _
  apply Work.bind_same_agrees (Work.access_agrees _)
  intro _
  apply Work.bind_same_agrees (Work.access_agrees _)
  intro _
  exact Work.pure_agrees rfl

theorem images_agrees (id : Int) (hash : String) (files : Option PageFile.Directory)
    (removeOnUpdate : Bool) (incoming : List Image) :
    Agrees (fun o o' => o.rows = o'.rows) (images id hash files removeOnUpdate incoming)
      (images id hash files removeOnUpdate incoming) :=
  images_agrees_apart id hash hash files files removeOnUpdate removeOnUpdate incoming

theorem optionally_agrees {α β : Type} {S : β → β → Prop} {R : Option β → Option β → Prop}
    {pass : α → Work β} (h : ∀ a, Agrees S (pass a) (pass a)) (hnone : R none none)
    (hsome : ∀ b b', S b b' → R (some b) (some b')) (o : Option α) :
    Agrees R (optionally pass o) (optionally pass o) := by
  cases o with
  | none => exact Work.pure_agrees hnone
  | some a =>
    apply Work.bind_agrees (h a)
    intro b b' hb
    exact Work.pure_agrees (hsome b b' hb)

theorem archive_agrees (answers : TagAnswers) (o : Options) (files : Option PageFile.Directory)
    (id : Int) (hash : String) (m : Metadata) :
    Agrees (fun r r' => r.rows = r'.rows) (archive answers o files id hash m)
      (archive answers o files id hash m) := by
  have hsources := optionally_agrees (R := Eq) (sources_agrees id o.sourceRules o.mergeSources
    o.verbose) rfl (fun _ _ h => congrArg some h) m.sources
  have htags := optionally_agrees (R := Eq) (tags_agrees answers id o.tagRules) rfl
    (fun _ _ h => congrArg some h) m.tags
  have himages := optionally_agrees
    (R := fun r r' => r.map ImageOutcome.rows = r'.map ImageOutcome.rows)
    (images_agrees id hash files o.removeOnUpdate) rfl (fun _ _ h => congrArg some h) m.images
  apply Work.bind_same_agrees hsources
  intro sourcePart
  apply Work.bind_same_agrees htags
  intro tagPart
  apply Work.bind_agrees himages
  intro imagePart imagePart' h
  apply Work.pure_agrees
  simp only [ArchiveOutcome.rows, h]

end Reconcile

namespace Service

/-! ## Services -/

theorem inUnit_agrees {α : Type} {R : α → α → Prop} {x y : Work α} (h : Agrees R x y) :
    Agrees R (inUnit x) (inUnit y) := by
  apply Work.bind_same_agrees (Work.ofUnit_agrees _)
  intro _
  apply Work.finally_agrees _ (Work.ofUnit_agrees _)
  apply Work.bind_agrees h
  intro a b hab
  apply Work.bind_same_agrees (Work.ofDatabase_agrees _)
  intro _
  exact Work.pure_agrees hab

theorem forArchive_agrees {α : Type} {R : α → α → Prop} {work : ArchiveRow → Work α}
    (h : ∀ row, Agrees R (work row) (work row)) (id : Int) :
    Agrees R (forArchive id work) (forArchive id work) := by
  apply inUnit_agrees
  apply Work.bind_same_agrees (Work.access_agrees _)
  intro found
  cases found with
  | some row => exact h row
  | none => exact Work.throw_agrees _ _

theorem createArchive_agrees (now : Calendar.Moment) (hash title : String) :
    Agrees Eq (createArchive now hash title) (createArchive now hash title) := by
  have hfree : Agrees Eq (requireFree hash) (requireFree hash) := by
    apply Work.bind_same_agrees (Work.access_agrees _)
    intro found
    cases found with
    | some row => exact Work.throw_agrees _ _
    | none => exact Work.pure_agrees rfl
  have hunit := inUnit_agrees (Work.bind_same_agrees hfree fun _ => Work.access_agrees
    (Repository.addArchive ⟨none, some hash, some title, now⟩))
  apply Work.bind_same_agrees hunit
  intro id
  apply Work.bind_same_agrees (Work.notify_agrees _ _)
  intro _
  exact Work.pure_agrees rfl

theorem reconcile_agrees (c : Context) (id : Int) (merge verbose : Bool) (m : Metadata) :
    Agrees (fun r r' => r.rows = r'.rows) (reconcile c id merge verbose m)
      (reconcile c id merge verbose m) := by
  apply Work.bind_same_agrees (Work.notify_agrees _ _)
  intro _
  apply Work.bind_agrees (forArchive_agrees (fun _ => Reconcile.archive_agrees _ _ _ _ _ _) id)
  intro r r' h
  apply Work.bind_same_agrees (Work.notify_agrees _ _)
  intro _
  exact Work.pure_agrees h

end Service

/-- A job ends alike from the same unit of work, whatever the files are. -/
theorem Job.run_agrees (job : Job) :
    Agrees (fun r r' => r.rows = r'.rows) job.run job.run := by
  cases job with
  | createArchive now hash title =>
    exact Work.map_agrees (Service.createArchive_agrees now hash title) fun _ _ h => by rw [h]
  | syncSources c id merge verbose sources =>
    exact Work.map_agrees
      (Service.forArchive_agrees (fun _ => Reconcile.sources_agrees _ _ _ _ _) id)
      fun _ _ h => by rw [h]
  | syncImages c id images =>
    exact Work.map_agrees
      (Service.forArchive_agrees (fun _ => Reconcile.images_agrees _ _ _ _ _) id)
      fun _ _ h => congrArg Returned.images h
  | syncTags c id tags =>
    exact Work.map_agrees
      (Service.forArchive_agrees (fun _ => Reconcile.tags_agrees _ _ _ _) id)
      fun _ _ h => by rw [h]
  | reconcile c id merge verbose m =>
    exact Work.map_agrees (Service.reconcile_agrees c id merge verbose m)
      fun _ _ h => congrArg Returned.all h

end GalleryCatalog
