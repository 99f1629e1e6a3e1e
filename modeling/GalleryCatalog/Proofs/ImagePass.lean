import Mathlib.Data.List.Find
import Mathlib.Tactic.SplitIfs
import GalleryCatalog.Proofs.Normalize
import GalleryCatalog.Proofs.OpenUnit

/-!
# What reconciling images does

A pass over the images of an archive looks at the stored pages, removes files, puts
the winning images on their pages and deletes the pages that are left over. It fails
only on an integer that no column holds or on more values than a statement binds, after
the files are gone. Afterwards a page shows its winner, with the stored dimensions where
the winner gives none.
-/

set_option autoImplicit false

namespace GalleryCatalog

/-- An image put over the one that its page shows, if it shows one. -/
def Image.over (i : Image) (old : Option Image) : Image :=
  { i with
    width := i.width.or (old.bind Image.width)
    height := i.height.or (old.bind Image.height) }

theorem ImageRow.updated_image (i : Image) (r : ImageRow) (h : r.page = i.page) :
    (r.updated i).image = i.over (some r.image) := by
  simp [ImageRow.updated, ImageRow.image, Image.over, h]

namespace Store

/-- The store with an image put on its page. -/
def withImage (archive : Int) (s : Store) (i : Image) : Store :=
  (putImage archive i s).2

/-- The store without some pages of an archive. -/
def withoutPages (archive : Int) (pages : List Int) (s : Store) : Store :=
  { s with images := s.images.filter fun r => ¬ (r.archive = archive ∧ pages.contains r.page) }

/-- What a page of an archive shows. -/
def page? (s : Store) (archive page : Int) : Option Image :=
  (s.images.find? (·.isPage archive page)).map ImageRow.image

theorem isPage_iff {archive page : Int} {r : ImageRow} :
    r.isPage archive page = true ↔ r.archive = archive ∧ r.page = page := by
  simp [ImageRow.isPage]

theorem mem_imagesOf {s : Store} {archive : Int} {i : Image} :
    i ∈ s.imagesOf archive ↔ ∃ r ∈ s.images, r.archive = archive ∧ r.image = i := by
  simp [imagesOf, and_assoc]

theorem putImages_snd (archive : Int) (images : List Image) (s : Store) :
    (putImages archive images s).2 = images.foldl (withImage archive) s := by
  induction images generalizing s with
  | nil => rfl
  | cons i images ih => exact ih _

theorem listImages_ok {archive : Int} (h : fits archive = true) (s : Store) :
    listImages archive s = .ok (s.imagesOf archive) s :=
  Work.requires_ok (by simp [h]) _ s

/-- Why images are not put on their pages, if they are not. -/
def imageRefusal? (images : List Image) : Option StoreError :=
  refusal? (5 * images.length) (images.flatMap imageIntegers)

/-- Why pages are not deleted, if they are not. -/
def pageRefusal? (pages : List Int) : Option StoreError :=
  refusal? (pages.length + 1) pages

theorem upsertImages_run (archive : Int) (images : List Image) (s : Store) :
    upsertImages archive images s =
      match refusal? (5 * images.length) (archive :: images.flatMap imageIntegers) with
      | none => .ok (putImages archive images s).1 (images.foldl (withImage archive) s)
      | some e => .error e s := by
  rw [← putImages_snd]
  exact Work.requires_both _ _ _ s

theorem deletePages_run (archive : Int) (pages : List Int) (s : Store) :
    deletePages archive pages s =
      match refusal? (pages.length + 1) (archive :: pages) with
      | none => .ok () (s.withoutPages archive pages)
      | some e => .error e s :=
  Work.requires_both _ _ _ s

/-! ## The pages of an archive -/

theorem page?_none {s : Store} {archive page : Int} :
    s.page? archive page = none ↔ ∀ i ∈ s.imagesOf archive, i.page ≠ page := by
  simp only [page?, Option.map_eq_none_iff, List.find?_eq_none, isPage_iff, mem_imagesOf]
  constructor
  · rintro h i ⟨r, hr, ha, rfl⟩ hp
    exact h r hr ⟨ha, hp⟩
  · rintro h r hr ⟨ha, hp⟩
    exact h r.image ⟨r, hr, ha, rfl⟩ hp

theorem isPage_updated (archive page : Int) (i : Image) (r : ImageRow) :
    (r.updated i).isPage archive page = r.isPage archive page := rfl

/-- An image goes over the row of its page, or into a row at the end. -/
theorem withImage_images (archive : Int) (s : Store) (i : Image) :
    (s.withImage archive i).images =
        s.images.map (fun r => if r.isPage archive i.page then r.updated i else r) ∨
      (s.withImage archive i).images = s.images ++
          [⟨nextId (s.images.map (·.id)), archive, i.page, i.filename, i.width, i.height⟩] ∧
        ∀ r ∈ s.images, ¬ r.isPage archive i.page = true := by
  unfold withImage putImage
  split
  next => exact Or.inl rfl
  next hnone => exact Or.inr ⟨rfl, List.find?_eq_none.mp hnone⟩

theorem withImage_page? (archive : Int) (s : Store) (i : Image) (page : Int) :
    (s.withImage archive i).page? archive page =
      if page = i.page then some (i.over (s.page? archive page))
      else s.page? archive page := by
  unfold withImage putImage page?
  cases hold : s.images.find? (·.isPage archive i.page) with
  | none =>
    by_cases hp : page = i.page
    · subst hp
      simp only [List.find?_append, hold, Option.none_or, if_true, Option.map_none]
      simp [ImageRow.isPage, ImageRow.image, Image.over]
    · have hne : ¬ i.page = page := Ne.symm hp
      simp only [List.find?_append, if_neg hp]
      congr 1
      simp [ImageRow.isPage, hne]
  | some old =>
    have hpage : ∀ q, (fun r : ImageRow => r.isPage archive q) ∘
        (fun r : ImageRow => if r.isPage archive i.page then r.updated i else r) =
        fun r => r.isPage archive q := by
      intro q
      funext r
      simp only [Function.comp_apply]
      split <;> simp [isPage_updated]
    simp only [List.find?_map, hpage]
    by_cases hp : page = i.page
    · subst hp
      have hrow := isPage_iff.mp (List.find?_some hold)
      have hpos : old.isPage archive i.page = true := isPage_iff.mpr hrow
      simp only [hold, Option.map_some, hpos, if_true, ImageRow.updated_image i old hrow.2]
    · simp only [hp, if_false]
      cases hfind : s.images.find? (·.isPage archive page) with
      | none => rfl
      | some r =>
        have hrow := isPage_iff.mp (List.find?_some hfind)
        have hne : ¬ r.isPage archive i.page = true := fun h =>
          hp (hrow.2.symm.trans (isPage_iff.mp h).2)
        simp only [Option.map_some, if_neg hne]

theorem withImages_page? (archive : Int) (images : List Image) (s : Store) (page : Int)
    (h : (images.map Image.page).Nodup) :
    (images.foldl (withImage archive) s).page? archive page =
      match images.find? fun i => i.page = page with
      | some i => some (i.over (s.page? archive page))
      | none => s.page? archive page := by
  induction images generalizing s with
  | nil => rfl
  | cons i images ih =>
    obtain ⟨hfirst, hrest⟩ := List.nodup_cons.mp h
    rw [List.foldl_cons, ih _ hrest, withImage_page?]
    by_cases hp : page = i.page
    · subst hp
      have hnone : images.find? (fun j => j.page = i.page) = none := by
        simp only [List.find?_eq_none, decide_eq_true_eq]
        intro j hj hpage
        exact hfirst (hpage ▸ List.mem_map_of_mem hj)
      simp [hnone]
    · simp [hp, Ne.symm hp]

theorem withoutPages_page? (archive : Int) (pages : List Int) (s : Store) (page : Int) :
    (s.withoutPages archive pages).page? archive page =
      if page ∈ pages then none else s.page? archive page := by
  unfold withoutPages page?
  rw [List.find?_filter]
  by_cases hp : page ∈ pages
  · simp only [hp, if_true, Option.map_eq_none_iff, List.find?_eq_none]
    rintro r -
    by_cases hr : r.isPage archive page = true
    · obtain ⟨ha, rfl⟩ := isPage_iff.mp hr
      simp [ha, hp]
    · simp [hr]
  · simp only [hp, if_false]
    congr 1
    apply List.find?_congr
    rintro r -
    by_cases hr : r.isPage archive page = true
    · obtain ⟨ha, rfl⟩ := isPage_iff.mp hr
      simp [hr, hp]
    · simp [hr]

theorem withoutPages_nil (archive : Int) (s : Store) : s.withoutPages archive [] = s := by
  unfold withoutPages
  congr 1
  simp

/-- The store after a pass over the images of an archive. -/
def afterImages (archive : Int) (incoming : List Image) (s : Store) : Store :=
  let wanted := Reconcile.winners incoming
  (wanted.foldl (withImage archive) s).withoutPages archive
    (Reconcile.stalePages wanted (s.imagesOf archive))

theorem withImage_frame (archive : Int) (s : Store) (i : Image) :
    ∃ rows, s.withImage archive i = { s with images := rows } := by
  unfold withImage putImage
  split <;> exact ⟨_, rfl⟩

/-- A pass over images touches no other table. -/
theorem afterImages_frame (archive : Int) (incoming : List Image) (s : Store) :
    ∃ rows, s.afterImages archive incoming = { s with images := rows } := by
  let others (t : Store) : Store := { t with images := [] }
  have hput (t : Store) (i : Image) : others (t.withImage archive i) = others t := by
    obtain ⟨rows, hrows⟩ := withImage_frame archive t i
    rw [hrows]
  have hsame : others (s.afterImages archive incoming) = others s :=
    Work.foldl_view (f := withImage archive) others hput _ s
  exact ⟨_, congrArg (fun t : Store =>
    { t with images := (s.afterImages archive incoming).images }) hsame⟩

/-- The stale pages are those that show an image and get none. -/
theorem mem_stalePages {archive : Int} {incoming : List Image} {s : Store} {page : Int} :
    page ∈ Reconcile.stalePages (Reconcile.winners incoming) (s.imagesOf archive) ↔
      s.page? archive page ≠ none ∧ Reconcile.winner? incoming page = none := by
  simp [Reconcile.stalePages, Reconcile.hasPage_winners, page?_none]

/-- A page shows the last incoming image for it, put over what it showed. -/
theorem afterImages_page? (archive : Int) (incoming : List Image) (s : Store) (page : Int) :
    (s.afterImages archive incoming).page? archive page =
      (Reconcile.winner? incoming page).map fun i => i.over (s.page? archive page) := by
  unfold afterImages
  rw [withoutPages_page?, withImages_page? _ _ _ _ (Reconcile.winners_pages_nodup incoming),
    Reconcile.winners_find]
  cases hwin : Reconcile.winner? incoming page with
  | some i => simp [mem_stalePages, hwin]
  | none =>
    cases hold : s.page? archive page with
    | none => simp
    | some i => simp [mem_stalePages, hwin, hold]

end Store

/-- An empty batch runs no statement, so that nothing refuses it. -/
theorem Repository.upsertImages_live (archive : Int) (images : List Image) (s : Store) :
    Repository.upsertImages archive images (.live s) =
      match if images = [] then none else
        refusal? (5 * images.length) (archive :: images.flatMap Store.imageIntegers) with
      | none => .ok (Store.putImages archive images s).1
          (.live (images.foldl (Store.withImage archive) s))
      | some e => .error e (.live s) := by
  unfold upsertImages
  by_cases hnil : images = []
  · subst hnil
    rfl
  · rw [if_neg hnil, if_neg hnil]
    simp only [Statement.onView, Store.upsertImages_run]
    cases refusal? (5 * images.length) (archive :: images.flatMap Store.imageIntegers) <;> rfl

namespace Reconcile

/-- What becomes of the files of replaced pages, and how many are removed. -/
def removal (files : Option PageFile.Directory) (removeOnUpdate : Bool) (hash : String)
    (replaced : List Image) (t : FileTree) : Nat × FileTree :=
  match files with
  | some dir =>
    if removeOnUpdate ∧ replaced ≠ [] then dir.removePages t hash (replaced.map Image.page)
    else (0, t)
  | none => (0, t)

theorem removeReplaced_run (files : Option PageFile.Directory) (removeOnUpdate : Bool)
    (hash : String) (replaced : List Image) (w : Workspace) :
    removeReplaced files removeOnUpdate hash replaced w =
      .ok (removal files removeOnUpdate hash replaced w.tree).1
        (w.withTree (removal files removeOnUpdate hash replaced w.tree).2) := by
  unfold removeReplaced removal
  split
  next dir => split <;> rfl
  next => rfl

theorem listImages_on {archive : Int} (h : fits archive = true) (w : Workspace) (s : Store) :
    Work.access (Repository.images archive) (w.on s) = .ok (s.imagesOf archive) (w.on s) :=
  Work.access_ok (Store.listImages_ok h s) w

theorem upsertImages_on {archive : Int} (h : fits archive = true) (images : List Image)
    (w : Workspace) (s : Store) :
    Work.access (Repository.upsertImages archive images) (w.on s) =
      match Store.imageRefusal? images with
      | none => .ok (Store.putImages archive images s).1
          (w.on (images.foldl (Store.withImage archive) s))
      | some e => .error (refused e) (w.on s) := by
  have hrun := Repository.upsertImages_live archive images s
  have hsame : (if images = [] then none else
      refusal? (5 * images.length) (archive :: images.flatMap Store.imageIntegers)) =
      Store.imageRefusal? images := by
    rw [refusal?_cons h, Store.imageRefusal?]
    split_ifs with hnil
    · rw [hnil]
      rfl
    · rfl
  rw [hsame] at hrun
  cases hrefused : Store.imageRefusal? images with
  | none =>
    rw [hrefused] at hrun
    exact Work.access_live hrun w
  | some e =>
    rw [hrefused] at hrun
    exact Work.access_live_error hrun w

theorem deletePages_on {archive : Int} (h : fits archive = true) (pages : List Int)
    (w : Workspace) (s : Store) :
    Work.access (Repository.deletePages archive pages) (w.on s) =
      match Store.pageRefusal? pages with
      | none => .ok () (w.on (s.withoutPages archive pages))
      | some e => .error (refused e) (w.on s) := by
  have hrun := Store.deletePages_run archive pages s
  rw [refusal?_cons h] at hrun
  unfold Repository.deletePages Store.pageRefusal?
  split_ifs with hnil
  · subst hnil
    rw [Store.withoutPages_nil]
    rfl
  · cases hrefused : refusal? (pages.length + 1) pages with
    | none =>
      rw [hrefused] at hrun
      exact Work.access_ok hrun w
    | some e =>
      rw [hrefused] at hrun
      exact Work.access_error hrun w

/-- A store with few images, whose pages fit, has no more pages than can be deleted at once. -/
theorem pageRefusal?_stale {s : Store} (hcount : s.images.length < parameterLimit)
    (hpages : ∀ r ∈ s.images, fits r.page = true) (wanted : List Image) (archive : Int) :
    Store.pageRefusal? (stalePages wanted (s.imagesOf archive)) = none := by
  apply refusal?_eq_none.mpr
  constructor
  · have hstale :
        (stalePages wanted (s.imagesOf archive)).length ≤ (s.imagesOf archive).length := by
      simpa [stalePages] using List.length_filter_le _ ((s.imagesOf archive).map Image.page)
    have hown : (s.imagesOf archive).length ≤ s.images.length := by
      simpa [Store.imagesOf] using List.length_filter_le _ s.images
    omega
  · rw [List.all_eq_true]
    intro n hn
    obtain ⟨i, hi, rfl⟩ := List.mem_map.mp (List.mem_filter.mp hn).1
    obtain ⟨r, hr, -, rfl⟩ := Store.mem_imagesOf.mp hi
    exact hpages r hr

/-- What a pass over images counts. -/
def imageOutcome (incoming current : List Image) (removedFiles : Nat) : ImageOutcome :=
  let wanted := winners incoming
  { inserted := (newImages wanted current).length
    updated := (replacedImages wanted current).length
    deleted := (stalePages wanted current).length
    removedFiles }

theorem images_on {archive : Int} (h : fits archive = true) (hash : String)
    (files : Option PageFile.Directory) (removeOnUpdate : Bool) (incoming : List Image)
    (w : Workspace) (s : Store) :
    images archive hash files removeOnUpdate incoming (w.on s) =
      let wanted := winners incoming
      let current := s.imagesOf archive
      let removed := removal files removeOnUpdate hash (replacedImages wanted current) w.tree
      match Store.imageRefusal? wanted, Store.pageRefusal? (stalePages wanted current) with
      | none, none =>
        .ok (imageOutcome incoming current removed.1)
          ((w.withTree removed.2).on (s.afterImages archive incoming))
      | none, some e =>
        .error (refused e) ((w.withTree removed.2).on (wanted.foldl (Store.withImage archive) s))
      | some e, _ => .error (refused e) ((w.withTree removed.2).on s) := by
  unfold images
  rw [Work.bind_of_ok (listImages_on h w s), Work.bind_of_ok (removeReplaced_run ..)]
  simp only [Workspace.on_tree, Workspace.on_withTree]
  have hput := upsertImages_on h (winners incoming)
    (w.withTree (removal files removeOnUpdate hash
      (replacedImages (winners incoming) (s.imagesOf archive)) w.tree).2) s
  have hdelete := deletePages_on h (stalePages (winners incoming) (s.imagesOf archive))
    (w.withTree (removal files removeOnUpdate hash
      (replacedImages (winners incoming) (s.imagesOf archive)) w.tree).2)
    ((winners incoming).foldl (Store.withImage archive) s)
  cases hwanted : Store.imageRefusal? (winners incoming) with
  | some e =>
    rw [hwanted] at hput
    rw [Work.bind_of_error hput]
  | none =>
    rw [hwanted] at hput
    rw [Work.bind_of_ok hput]
    cases hstale : Store.pageRefusal? (stalePages (winners incoming) (s.imagesOf archive)) with
    | some e =>
      rw [hstale] at hdelete
      rw [Work.bind_of_error hdelete]
    | none =>
      rw [hstale] at hdelete
      rw [Work.bind_of_ok hdelete]
      rfl

/-- Nothing refuses the statements of a pass over images. -/
structure Storable (archive : Int) (incoming : List Image) (s : Store) : Prop where
  put : Store.imageRefusal? (winners incoming) = none
  delete : Store.pageRefusal? (stalePages (winners incoming) (s.imagesOf archive)) = none

theorem Storable.integers {archive : Int} {incoming : List Image} {s : Store}
    (h : Storable archive incoming s) :
    ((winners incoming).flatMap Store.imageIntegers).all fits = true :=
  (refusal?_eq_none.mp h.put).2

/-- A pass whose statements nothing refuses returns. -/
theorem Storable.images_on {archive : Int} (hid : fits archive = true) {incoming : List Image}
    {s : Store} (h : Storable archive incoming s) (hash : String)
    (files : Option PageFile.Directory) (removeOnUpdate : Bool) (w : Workspace) :
    let removed := removal files removeOnUpdate hash
      (replacedImages (winners incoming) (s.imagesOf archive)) w.tree
    images archive hash files removeOnUpdate incoming (w.on s) =
      .ok (imageOutcome incoming (s.imagesOf archive) removed.1)
        ((w.withTree removed.2).on (s.afterImages archive incoming)) := by
  rw [Reconcile.images_on hid]
  dsimp only
  rw [h.put, h.delete]

/-- Only such a pass returns. -/
theorem images_on_eq_ok {archive : Int} (hid : fits archive = true) {hash : String}
    {files : Option PageFile.Directory} {removeOnUpdate : Bool} {incoming : List Image}
    {w v : Workspace} {s : Store} {o : ImageOutcome}
    (h : images archive hash files removeOnUpdate incoming (w.on s) = .ok o v) :
    let removed := removal files removeOnUpdate hash
      (replacedImages (winners incoming) (s.imagesOf archive)) w.tree
    Storable archive incoming s ∧ o = imageOutcome incoming (s.imagesOf archive) removed.1 ∧
      v = (w.withTree removed.2).on (s.afterImages archive incoming) := by
  rw [images_on hid] at h
  dsimp only at h ⊢
  split at h
  next hput hdelete =>
    obtain ⟨rfl, rfl⟩ := EStateM.Result.ok.inj h
    exact ⟨⟨hput, hdelete⟩, rfl, rfl⟩
  next => cases h
  next => cases h

end Reconcile

end GalleryCatalog
