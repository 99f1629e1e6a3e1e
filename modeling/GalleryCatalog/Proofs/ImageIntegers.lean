import GalleryCatalog.Proofs.PageHistory
import GalleryCatalog.Proofs.UnresolvedTags

/-!
# Integers of images

The database takes no integer outside 64 bits. An image that wins its page and has such a number
stops the pass before anything is written, and an image that loses its page never does. Otherwise
every page reads back the numbers of its winner, and those that it had where the winner gives none.
All this is about lists that are not too long for one statement.
-/

set_option autoImplicit false

namespace GalleryCatalog

open Reconcile (LastFor winners)
open Store (pageRows)

/-- An integer is within 64 bits. -/
def InRange (n : Int) : Prop :=
  -0x8000000000000000 ≤ n ∧ n ≤ 0x7fffffffffffffff

instance (n : Int) : Decidable (InRange n) :=
  inferInstanceAs (Decidable (_ ∧ _))

/-- All integers of an image are within 64 bits. -/
structure Image.InRange (i : Image) : Prop where
  page : GalleryCatalog.InRange i.page
  width : ∀ n, i.width = some n → GalleryCatalog.InRange n
  height : ∀ n, i.height = some n → GalleryCatalog.InRange n

/-- A row has the integers of an image, and where the image has none those that the page had. -/
structure ImageRow.ReadsBack (before : List ImageRow) (i : Image) (r : ImageRow) : Prop where
  page : r.page = i.page
  filename : r.filename = i.filename
  width : r.width = i.width.or (before.head?.bind ImageRow.width)
  height : r.height = i.height.or (before.head?.bind ImageRow.height)

/-- What the database sees to in the table of images: the numbers of pages fit their column, and
an archive has a page once. -/
structure Store.PagesKeyed (s : Store) : Prop where
  fit : ∀ r ∈ s.images, fits r.page = true
  once : (s.images.map fun r => (r.archive, r.page)).Nodup

/-- The winning images, and the pages that are no longer incoming, are few enough for one
statement each. -/
structure Store.TakesImages (s : Store) (archive : Int) (images : List Image) : Prop where
  put : 5 * (winners images).length ≤ parameterLimit
  delete : (Reconcile.stalePages (winners images) (s.imagesOf archive)).length + 1 ≤ parameterLimit

/-! ## What is refused -/

theorem fits_iff_inRange {n : Int} : fits n = true ↔ InRange n := by
  rw [fits_iff, InRange]
  omega

theorem Image.inRange_iff {i : Image} :
    i.InRange ↔ ∀ n ∈ Store.imageIntegers i, fits n = true := by
  simp only [Store.imageIntegers, List.mem_cons, List.mem_append, Option.mem_toList,
    fits_iff_inRange]
  constructor
  · rintro h n (rfl | hn | hn)
    · exact h.page
    · exact h.width n hn
    · exact h.height n hn
  · intro h
    exact ⟨h _ (.inl rfl), fun n hn => h n (.inr (.inl hn)), fun n hn => h n (.inr (.inr hn))⟩

theorem winners_fit_iff {images : List Image} :
    ((winners images).flatMap Store.imageIntegers).all fits = true ↔
      ∀ i, LastFor images i → i.InRange := by
  simp only [List.all_eq_true, List.mem_flatMap, Reconcile.mem_winners, Reconcile.winner?_eq_some,
    and_true, Image.inRange_iff]
  exact ⟨fun h i hlast n hn => h n ⟨i, hlast, hn⟩, fun h n ⟨i, hlast, hn⟩ => h i hlast n hn⟩

theorem Store.TakesImages.imageRefusal?_outOfRange {s : Store} {archive : Int}
    {images : List Image} (h : s.TakesImages archive images)
    (hrange : ∃ i, LastFor images i ∧ ¬ i.InRange) :
    imageRefusal? (winners images) = some .integerOutOfRange := by
  have hunfit : ¬ ((winners images).flatMap imageIntegers).all fits = true := by
    rw [winners_fit_iff]
    exact fun hall => hrange.elim fun i hi => hi.2 (hall i hi.1)
  rw [imageRefusal?, refusal?, if_neg (not_not.mpr h.put), if_pos hunfit]

namespace Store.PagesKeyed

variable {s : Store}

theorem stalePages_fit (h : s.PagesKeyed) (archive : Int) (incoming : List Image) :
    (Reconcile.stalePages (winners incoming) (s.imagesOf archive)).all fits = true := by
  rw [List.all_eq_true]
  intro page hpage
  obtain ⟨i, hi, rfl⟩ := List.mem_map.mp (List.mem_filter.mp hpage).1
  obtain ⟨r, hr, -, rfl⟩ := mem_imagesOf.mp hi
  exact h.fit r hr

theorem storable (h : s.PagesKeyed) {archive : Int} {images : List Image}
    (hshort : s.TakesImages archive images) (hrange : ∀ i, LastFor images i → i.InRange) :
    Reconcile.Storable archive images s where
  put := refusal?_eq_none.mpr ⟨hshort.put, winners_fit_iff.mpr hrange⟩
  delete := refusal?_eq_none.mpr ⟨hshort.delete, h.stalePages_fit archive images⟩

/-- A page has one row at most. -/
theorem pageRows_eq (h : s.PagesKeyed) (archive page : Int) :
    s.pageRows archive page = (s.images.find? (·.isPage archive page)).toList := by
  have hkey := filter_key h.once (archive, page)
  simpa only [pageRows, ImageRow.isPage, Prod.mk.injEq] using hkey

/-! ## What is read back -/

theorem afterImages_readsBack (h : s.PagesKeyed) (archive : Int) {incoming : List Image} {i : Image}
    (hlast : LastFor incoming i) :
    ∃ r, (s.afterImages archive incoming).pageRows archive i.page = [r] ∧
      r.ReadsBack (s.pageRows archive i.page) i := by
  have hstep := afterImages_pageStep archive i.page incoming s
  rw [Reconcile.winner?_eq_some.mpr ⟨hlast, rfl⟩] at hstep
  generalize (s.afterImages archive incoming).pageRows archive i.page = rows at hstep ⊢
  cases hstep with
  | brought _ n hnone =>
    rw [hnone]
    exact ⟨_, rfl, rfl, rfl, Option.or_none.symm, Option.or_none.symm⟩
  | put _ hsome =>
    rw [h.pageRows_eq] at hsome ⊢
    cases hfind : s.images.find? (·.isPage archive i.page) with
    | none => exact absurd (congrArg Option.toList hfind) hsome
    | some r =>
      obtain ⟨-, hpage⟩ := isPage_iff.mp (List.find?_some hfind)
      exact ⟨r.updated i, rfl, hpage, rfl, rfl, rfl⟩

end Store.PagesKeyed

theorem Store.afterImages_left_over (archive : Int) {incoming : List Image} {page : Int}
    (hnone : ∀ i ∈ incoming, i.page ≠ page) (s : Store) :
    (s.afterImages archive incoming).pageRows archive page = [] := by
  have hpage := s.afterImages_page? archive incoming page
  rw [Reconcile.winner?_eq_none.mpr hnone, Option.map_none, page?, Option.map_eq_none_iff] at hpage
  rw [pageRows, List.filter_eq_nil_iff]
  exact List.find?_eq_none.mp hpage

/-! ## Numbers of stored pages -/

theorem Store.afterImages_pages_fit (archive : Int) {incoming : List Image} {s : Store}
    (hs : ∀ r ∈ s.images, fits r.page = true) (hrange : ∀ i, LastFor incoming i → i.InRange) :
    ∀ r ∈ (s.afterImages archive incoming).images, fits r.page = true := by
  intro r hr
  obtain ⟨added, hrows, -, -, himages⟩ := s.afterImages_rows archive incoming
  rw [hrows] at hr
  rcases List.mem_append.mp hr with hkept | hadded
  · obtain ⟨old, hold, rfl⟩ := List.mem_map.mp hkept
    rw [(Reconcile.overwritten_key archive incoming old).2.2]
    exact hs old (List.mem_filter.mp hold).1
  · have hwinner : r.image ∈ added.map ImageRow.image := List.mem_map_of_mem hadded
    rw [himages] at hwinner
    have hwins := Reconcile.mem_winners.mp (List.mem_filter.mp hwinner).1
    exact fits_iff_inRange.mpr (hrange r.image (Reconcile.winner?_eq_some.mp hwins).1).page

theorem Job.preserve_pages_fit : Preserve fun s => ∀ r ∈ s.images, fits r.page = true := by
  refine preserve_of_parts (fun s row hs => hs) ?_
  intro job p w u s r hs hp h
  have hreturns := Reconciliation.returns_of_run hp h
  rw [hreturns.unit]
  cases hm : p.metadata.images with
  | none =>
    simpa only [UnitOfWork.closed_committed, Reconcile.reconciled_no_images _ _ _ s hm] using hs
  | some is =>
    obtain ⟨row, -, w', v, -, -, hdone⟩ := hreturns.stored
    simp only [UnitOfWork.closed_committed, Reconcile.reconciled, hm]
    refine Store.afterImages_pages_fit _ ?_ (winners_fit_iff.mp (hdone.storable is hm).integers)
    rwa [(Reconcile.tagged_rest ..).2.2]

/-- Calls lead to no store in which the database would not see to the pages. -/
theorem Store.Reachable.pagesKeyed {s : Store} (h : s.Reachable) : s.PagesKeyed :=
  ⟨h.keeps (by simp) Job.preserve_pages_fit, h.sound.pages_once⟩

/-! ## The service and its calls -/

section Service

variable {c : Service.Context} {id : Int} {images : List Image} {s : Store}
  (hid : fits id = true) (ha : s.HasArchive id) (hs : s.PagesKeyed)
  (hshort : s.TakesImages id images)
include hid ha hshort

include hs in
theorem Service.syncImages_inRange (hrange : ∀ i, LastFor images i → i.InRange) (w : Workspace) :
    ∃ o v, syncImages c id images (w.closedOn s) =
      .ok o (Workspace.closedOn v (s.afterImages id images)) := by
  obtain ⟨row, hrow⟩ := Store.hasArchive_iff.mp ha
  have hpass := (hs.storable hshort hrange).images_on hid row.hash (some c.files)
    c.settings.removeOnUpdate (w.closedOn s)
  exact ⟨_, _, forArchive_ok hid hrow hpass⟩

theorem Service.syncImages_outOfRange (hrange : ∃ i, LastFor images i ∧ ¬ i.InRange)
    (w : Workspace) :
    ∃ v, syncImages c id images (w.closedOn s) = .error outOfRange (Workspace.closedOn v s) := by
  obtain ⟨row, hrow⟩ := Store.hasArchive_iff.mp ha
  have hpass := Reconcile.images_on hid row.hash (some c.files) c.settings.removeOnUpdate images
    (w.closedOn s) s
  dsimp only at hpass
  rw [hshort.imageRefusal?_outOfRange hrange] at hpass
  have hfails : syncImages c id images (w.closedOn s) = .error outOfRange _ :=
    forArchive_error hid hrow hpass
  exact ⟨_, hfails⟩

end Service

/-- With lists that are short enough a call on the images of a stored archive fails on an integer
exactly when an image that wins its page has one out of range, and then every row stays. Otherwise
it returns, and the archive has one row for each page of the list, from which the integers of the
winner are read back. -/
theorem Call.syncImages_exactly {p : Application} {e : Engine} {t : Terms} {id : Int}
    (hp : p.Serves e) (hsettings : Work.returns t.context p = true) (hid : fits id = true)
    (ha : (p.storeOf e).HasArchive id) (hs : (p.storeOf e).PagesKeyed) (hcalm : p.troubles = [])
    {images : List Image} (hshort : (p.storeOf e).TakesImages id images) :
    ((∃ q, (Call.syncImages id images).perform t p = .error outOfRange q ∧
        ∀ e', q.storeOf e' = p.storeOf e') ↔ ∃ i, LastFor images i ∧ ¬ i.InRange) ∧
      ((∀ i, LastFor images i → i.InRange) →
        ∃ o q, (Call.syncImages id images).perform t p = .ok (.images o) q ∧
          (∀ i, LastFor images i → ∃ r, (q.storeOf e).pageRows id i.page = [r] ∧
            r.ReadsBack ((p.storeOf e).pageRows id i.page) i) ∧
          ∀ page, (∀ i ∈ images, i.page ≠ page) → (q.storeOf e).pageRows id page = []) := by
  obtain ⟨c, p', hcontext⟩ := Work.eq_ok_of_returns hsettings
  have hjob : (Call.syncImages id images).job t p = .ok (.syncImages c id images) p' :=
    Work.bind_of_ok hcontext
  have hreturns : (∀ i, LastFor images i → i.InRange) → ∃ o w,
      (Call.syncImages id images).perform t p = .ok (.images o)
        (p'.after e (Workspace.closedOn w ((p.storeOf e).afterImages id images))) := by
    intro hrange
    obtain ⟨o, v, hrun⟩ :=
      Service.syncImages_inRange (c := c) hid ha hs hshort hrange (p'.workspace e none)
    exact ⟨o, v, perform_of_ok hp hjob hcalm (Work.map_eq_ok.mpr ⟨o, hrun, rfl⟩)⟩
  constructor
  · constructor
    · rintro ⟨q, hfails, -⟩
      by_contra hnone
      push Not at hnone
      obtain ⟨o, w, hruns⟩ := hreturns hnone
      cases hruns.symm.trans hfails
    · intro hrange
      obtain ⟨v, hrun⟩ :=
        Service.syncImages_outOfRange (c := c) hid ha hshort hrange (p'.workspace e none)
      have hfails := perform_of_error hp hjob hcalm (Work.map_eq_error.mpr hrun)
      exact ⟨_, hfails, error_storeOf hp hfails⟩
  · intro hrange
    obtain ⟨o, w, hruns⟩ := hreturns hrange
    refine ⟨o, _, hruns, ?_, ?_⟩
    all_goals rw [Application.storeOf_after, if_pos rfl]
    · exact fun i hlast => hs.afterImages_readsBack id hlast
    · exact fun page hnone => Store.afterImages_left_over id hnone _

/-- A page with known dimensions. -/
def Application.sized : Application where
  stores := [(.memory 0,
    { Store.withFirst with images := [⟨1, 1, 1, "1.png", some 10, some 20⟩] })]
  bound := some (.memory 0)

/-- An image for this page under another name, with a width and without a height. -/
def Image.wide (width : Int) : Image :=
  ⟨"1.jpg", 1, some width, none⟩

/-- The first of two images is out of range and loses. The second has the greatest width there can
be. With a width one above it, the call fails. -/
theorem Call.greatest_width_read_back :
    (∃ o q r, (Call.syncImages 1 [.wide 0x8000000000000000, .wide 0x7fffffffffffffff]).perform
          Terms.removing .sized = .ok (.images o) q ∧
        (q.storeOf (.memory 0)).pageRows 1 1 = [r] ∧
        r.width = some 0x7fffffffffffffff ∧ r.height = some 20) ∧
      ∃ q, (Call.syncImages 1 [.wide 0x8000000000000000]).perform Terms.removing .sized =
          .error outOfRange q ∧
        q.storeOf (.memory 0) = Application.sized.storeOf (.memory 0) := by
  have hstored : (Application.sized.storeOf (.memory 0)).HasArchive 1 := List.mem_singleton.mpr rfl
  have hkeyed : (Application.sized.storeOf (.memory 0)).PagesKeyed := ⟨by decide, by decide⟩
  constructor
  · have hrange := winners_fit_iff.mp (by decide +kernel :
      ((winners [.wide 0x8000000000000000, .wide 0x7fffffffffffffff]).flatMap
        Store.imageIntegers).all fits = true)
    obtain ⟨o, q, hruns, hreads, -⟩ := (syncImages_exactly (p := .sized) (e := .memory 0)
      (t := Terms.removing) ⟨rfl, rfl⟩ rfl (by decide) hstored hkeyed rfl
      ⟨by decide +kernel, by decide +kernel⟩).2 hrange
    obtain ⟨r, hrow, hr⟩ := hreads (.wide 0x7fffffffffffffff) ⟨[_], [], rfl, by simp⟩
    exact ⟨o, q, r, hruns, hrow, hr.width, hr.height⟩
  · have htoo : ¬ InRange 0x8000000000000000 := by decide
    obtain ⟨q, hfails, hstores⟩ := (syncImages_exactly (p := .sized) (e := .memory 0)
      (t := Terms.removing) ⟨rfl, rfl⟩ rfl (by decide) hstored hkeyed rfl
      ⟨by decide +kernel, by decide +kernel⟩).1.mpr
      ⟨.wide 0x8000000000000000, ⟨[], [], rfl, by simp⟩, fun h => htoo (h.width _ rfl)⟩
    exact ⟨q, hfails, hstores _⟩

end GalleryCatalog
