import Mathlib.Data.List.Induction
import GalleryCatalog.Proofs.CallFrame
import GalleryCatalog.Proofs.RowChanges

/-!
# The history of a page

An image put on a page that has a row goes over this row, and a dimension that it does not
give stays. So the dimensions of a page are the last ones that were given since it was
missing, each by itself. Calls that fail give none, nor do calls on other archives and
collections, wherever they lie in the history.
-/

set_option autoImplicit false

namespace GalleryCatalog

open Reconcile

/-- The rows of a page of an archive. -/
def Store.pageRows (s : Store) (archive page : Int) : List ImageRow :=
  s.images.filter (·.isPage archive page)

/-- What one call does to the rows of a page: it leaves them or takes them out, or it puts an
image on the page, which goes into a new row or over those that are there. -/
inductive PageStep (archive page : Int) (rows : List ImageRow) :
    Option Image → List ImageRow → Prop
  | left : PageStep archive page rows none rows
  | taken : PageStep archive page rows none []
  | brought (i : Image) (n : Int) (h : rows = []) :
    PageStep archive page rows (some i) [⟨n, archive, page, i.filename, i.width, i.height⟩]
  | put (i : Image) (h : rows ≠ []) :
    PageStep archive page rows (some i) (rows.map (·.updated i))

/-! ## One pass over images -/

/-- Of entries with different keys one at most has a given key. -/
theorem filter_key {α β : Type} [DecidableEq β] {key : α → β} {xs : List α}
    (h : (xs.map key).Nodup) (k : β) :
    xs.filter (fun x => key x = k) = (xs.find? fun x => key x = k).toList := by
  induction xs with
  | nil => rfl
  | cons x xs ih =>
    obtain ⟨hfirst, hrest⟩ := List.nodup_cons.mp h
    by_cases hk : key x = k
    · have hnone : xs.filter (fun y => key y = k) = [] := by
        rw [List.filter_eq_nil_iff]
        intro y hy hsame
        exact hfirst (hk.trans (of_decide_eq_true hsame).symm ▸ List.mem_map_of_mem hy)
      simp [hk, hnone]
    · simp [hk, ih hrest]

namespace Store

variable (archive page : Int)

theorem pageRows_eq_nil {s : Store} {archive page : Int} :
    s.pageRows archive page = [] ↔ s.images.any (·.isPage archive page) = false := by
  simp [pageRows]

theorem kept_pageRows (incoming : List Image) (s : Store) :
    ((s.images.filter fun r => !dropsPage archive incoming r).map
        (overwritten archive incoming)).filter (·.isPage archive page) =
      match winner? incoming page with
      | none => []
      | some i => (s.pageRows archive page).map (·.updated i) := by
  have hkey : (fun r : ImageRow => r.isPage archive page) ∘ overwritten archive incoming =
      fun r => r.isPage archive page := by
    funext r
    obtain ⟨-, ha, hp⟩ := overwritten_key archive incoming r
    simp [ImageRow.isPage, ha, hp]
  have hdrops : ∀ r : ImageRow, r.isPage archive page = true →
      dropsPage archive incoming r = !(winner? incoming page).isSome := by
    intro r hr
    obtain ⟨ha, rfl⟩ := isPage_iff.mp hr
    exact dropsPage_eq ha
  rw [List.filter_map, hkey, List.filter_filter]
  cases hwin : winner? incoming page with
  | none =>
    simp only [List.map_eq_nil_iff, List.filter_eq_nil_iff, Bool.and_eq_true]
    rintro r - ⟨hpage, hkept⟩
    simp [hdrops r hpage, hwin] at hkept
  | some i =>
    have hfilter : s.images.filter (fun r => r.isPage archive page &&
        !dropsPage archive incoming r) = s.pageRows archive page := by
      apply List.filter_congr
      intro r _
      cases hr : r.isPage archive page with
      | false => rfl
      | true => simp [hdrops r hr, hwin]
    rw [hfilter]
    apply List.map_congr_left
    intro r hr
    obtain ⟨ha, rfl⟩ := isPage_iff.mp (List.mem_filter.mp hr).2
    simp [overwritten, ha, hwin]

theorem added_pageRows {incoming : List Image} {s : Store} {added : List ImageRow}
    (howner : ∀ r ∈ added, r.archive = archive)
    (himages : added.map ImageRow.image =
      (winners incoming).filter fun i => !s.images.any (·.isPage archive i.page)) :
    (added.filter (·.isPage archive page)).map ImageRow.image =
      if s.pageRows archive page = [] then (winner? incoming page).toList else [] := by
  have hadded : (added.filter (·.isPage archive page)).map ImageRow.image =
      (added.map ImageRow.image).filter (·.page = page) := by
    rw [List.filter_map]
    congr 1
    apply List.filter_congr
    intro r hr
    simp only [ImageRow.isPage, howner r hr, true_and]
    rfl
  have hwinners := filter_key (winners_pages_nodup incoming) page
  rw [winners_find] at hwinners
  have hnew : (winners incoming).filter (fun i => decide (i.page = page) &&
        !s.images.any (·.isPage archive i.page)) =
      ((winners incoming).filter (·.page = page)).filter fun _ =>
        !s.images.any (·.isPage archive page) := by
    rw [List.filter_filter]
    apply List.filter_congr
    intro i _
    by_cases hp : i.page = page <;> simp [hp]
  rw [hadded, himages, List.filter_filter, hnew, hwinners]
  split_ifs with hnone
  · simp [pageRows_eq_nil.mp hnone]
  · simp [(Bool.not_eq_false _).mp (mt pageRows_eq_nil.mpr hnone)]

/-- What a pass over images does to the rows of a page. -/
theorem afterImages_pageStep (incoming : List Image) (s : Store) :
    PageStep archive page (s.pageRows archive page) (winner? incoming page)
      ((s.afterImages archive incoming).pageRows archive page) := by
  obtain ⟨added, hrows, -, howner, himages⟩ := s.afterImages_rows archive incoming
  have hnew := added_pageRows archive page howner himages
  have hafter : (s.afterImages archive incoming).pageRows archive page =
      (match winner? incoming page with
        | none => []
        | some i => (s.pageRows archive page).map (·.updated i)) ++
        added.filter (·.isPage archive page) := by
    rw [pageRows, hrows, List.filter_append, kept_pageRows]
  rw [hafter]
  cases hwin : winner? incoming page with
  | none =>
    have hnil : added.filter (·.isPage archive page) = [] := by simpa [hwin] using hnew
    rw [hnil]
    exact .taken
  | some i =>
    by_cases hnone : s.pageRows archive page = []
    · rw [if_pos hnone, hwin, Option.toList_some, List.map_eq_singleton_iff] at hnew
      obtain ⟨r, hr, rfl⟩ := hnew
      have hpage : r ∈ added.filter (·.isPage archive page) := by simp [hr]
      obtain ⟨ha, hp⟩ := isPage_iff.mp (List.mem_filter.mp hpage).2
      rw [hnone, hr, ← ha, ← hp]
      exact .brought r.image r.id rfl
    · rw [if_neg hnone, List.map_eq_nil_iff] at hnew
      rw [hnew, List.append_nil]
      exact .put i hnone

end Store

/-! ## One call -/

/-- The last image for a page that metadata bring. -/
def Metadata.winner? (m : Metadata) (page : Int) : Option Image :=
  m.images.bind fun images => Reconcile.winner? images page

theorem Reconciliation.after_pageStep (r : Reconciliation) (page : Int) (s : Store) :
    PageStep r.archive page (s.pageRows r.archive page) (r.metadata.winner? page)
      ((r.after s).pageRows r.archive page) := by
  have himages := (tagged_rest r.context.answers r.options r.archive r.metadata s).2.2
  unfold after reconciled Metadata.winner? Store.pageRows
  rw [← himages]
  cases r.metadata.images with
  | none => exact .left
  | some images => exact Store.afterImages_pageStep r.archive page images _

theorem Store.Leaves.pageRows {archive : Int} {s s' : Store} (h : s.Leaves archive s')
    (page : Int) : s'.pageRows archive page = s.pageRows archive page := by
  have hrows (t : Store) : t.pageRows archive page =
      (t.images.filter (·.archive = archive)).filter (·.page = page) := by
    rw [Store.pageRows, List.filter_filter]
    apply List.filter_congr
    intro r _
    simp [ImageRow.isPage, Bool.and_comm]
  rw [hrows, hrows, h.images]

namespace Call

variable {p : Application} {e : Engine} {t : Terms} {c : Call} (archive page : Int)

/-- The image that a call puts on a page: the last one for it, if the call is on the archive,
brings images, and returns. -/
def winner? (t : Terms) (p : Application) (c : Call) : Option Image :=
  if c.archive? = some archive ∧ Work.returns (c.perform t) p then
    (c.metadata? p).bind (·.winner? page)
  else none

/-- A new archive brings no image. -/
theorem left_images (hp : p.Serves e) (hc : c.archive? = none) :
    ((Work.left (c.perform t) p).storeOf e).images = (p.storeOf e).images := by
  cases c with
  | createArchive hash title =>
    rcases perform_ends hp t (.createArchive hash title) with
      ⟨f, q, -, hreads, hleft, -⟩ | ⟨job, p', hjob, hreads, hleft, -⟩
    · rw [hleft, hreads.storeOf]
    · obtain ⟨rfl, -⟩ := Work.pure_eq_ok.mp hjob
      have hunit := hreads.workspace_unit e
      rw [hleft, Application.storeOf_after, if_pos rfl]
      cases hrun : (Job.createArchive t.now hash title).run (p'.workspace e none) with
      | ok r u =>
        have hcalm := Job.run_unimpeded _ _ _ _ hrun
        rw [← Workspace.closedOn_of_closed hunit] at hcalm
        obtain ⟨a, hcreate, -⟩ := Work.map_eq_ok.mp hcalm
        obtain ⟨row, hcreated, -⟩ := Service.createArchive_eq_ok hcreate
        rw [Work.left_of_ok hrun, ← u.calm_unit, hcreated]
        rfl
      | error f u =>
        rw [Work.left_of_error hrun, Job.run_error hunit hrun]
        rfl
  | _ => cases hc

/-- What a call does to the rows of a page, whether it returns or fails. -/
theorem left_pageStep (hp : p.Serves e) (t : Terms) (c : Call) :
    PageStep archive page ((p.storeOf e).pageRows archive page) (c.winner? archive page t p)
      (((Work.left (c.perform t) p).storeOf e).pageRows archive page) := by
  unfold winner?
  cases hid : c.archive? with
  | none =>
    have hsame : ((Work.left (c.perform t) p).storeOf e).pageRows archive page =
        (p.storeOf e).pageRows archive page := by
      rw [Store.pageRows, Store.pageRows, left_images hp hid]
    rw [if_neg (by simp), hsame]
    exact .left
  | some id =>
    obtain ⟨-, ⟨hsame, hfails⟩ | ⟨job, p', r, -, -, rfl, hm, hreturns, hafter⟩⟩ :=
      left_stores (t := t) hp hid
    · rw [if_neg (by simp [hfails]), hsame]
      exact .left
    · rw [hafter]
      by_cases ha : archive = r.archive
      · subst ha
        rw [if_pos ⟨rfl, hreturns⟩, hm]
        exact r.after_pageStep page _
      · have hleaves : (p.storeOf e).Leaves archive (r.after (p.storeOf e)) :=
          reconciled_leaves _ _ _ _ ha
        rw [if_neg (by simp [Ne.symm ha]), hleaves.pageRows]
        exact .left

end Call

/-! ## A history -/

namespace Event

variable (archive page : Int)

/-- The image that a call puts on a page when it is made. -/
def winner? (p : Application) (v : Event) : Option Image :=
  v.call.winner? archive page v.terms (found p v)

/-- The images that calls put on a page, one after another. -/
def carried : List Event → Application → List Image
  | [], _ => []
  | v :: events, p => (v.winner? archive page p).toList ++ carried events (happen p v)

/-- A page has no row after some calls. After each later one it has a row of the same number,
and in the end its dimensions are the last ones that images put on it since have given. -/
structure StoredSince (e : Engine) (p : Application) (before since : List Event)
    (r : ImageRow) : Prop where
  absent : ((run before p).storeOf e).pageRows archive page = []
  kept : ∀ n, 0 < n → n ≤ since.length → ∃ r',
    ((run (before ++ since.take n) p).storeOf e).pageRows archive page = [r'] ∧ r'.id = r.id
  width : r.width =
    ((carried archive page since (run before p)).filterMap Image.width).getLast?
  height : r.height =
    ((carried archive page since (run before p)).filterMap Image.height).getLast?

variable {archive page} {p : Application} {e : Engine}

theorem run_append (events later : List Event) (p : Application) :
    run (events ++ later) p = run later (run events p) :=
  List.foldl_append

theorem run_serves (hp : p.Serves e) (events : List Event) : (run events p).Serves e :=
  (run_keeps (P := fun _ => True) (fun _ _ _ _ _ _ _ => trivial) hp trivial events).1

theorem run_pageStep (archive page : Int) (hp : p.Serves e) (events : List Event) (v : Event) :
    PageStep archive page (((run events p).storeOf e).pageRows archive page)
      (v.winner? archive page (run events p))
      (((run (events ++ [v]) p).storeOf e).pageRows archive page) := by
  rw [run_append]
  exact Call.left_pageStep (p := found (run events p) v) archive page (run_serves hp events)
    v.terms v.call

theorem carried_concat (events : List Event) (v : Event) (p : Application) :
    carried archive page (events ++ [v]) p =
      carried archive page events p ++ (v.winner? archive page (run events p)).toList := by
  induction events generalizing p with
  | nil => simp [carried, run]
  | cons w events ih =>
    rw [List.cons_append, carried, carried, ih, List.append_assoc]
    rfl

/-- A dimension that is given goes over the last one. -/
theorem carried_last {β : Type} (dimension : Image → Option β) (events : List Event) (v : Event)
    (p : Application) :
    ((carried archive page (events ++ [v]) p).filterMap dimension).getLast? =
      ((v.winner? archive page (run events p)).bind dimension).or
        ((carried archive page events p).filterMap dimension).getLast? := by
  rw [carried_concat, List.filterMap_append, List.getLast?_append]
  congr 1
  cases v.winner? archive page (run events p) with
  | none => rfl
  | some i => cases h : dimension i <;> simp [h]

namespace StoredSince

variable {before since : List Event} {r : ImageRow}

/-- Nothing is put on a page since it was found missing, so a row that comes for it starts
without dimensions. -/
theorem missing (habsent : ((run before p).storeOf e).pageRows archive page = []) (n : Int) :
    StoredSince archive page e p before [] ⟨n, archive, page, "", none, none⟩ where
  absent := habsent
  kept := fun _ hpos hm => absurd hm (Nat.not_le_of_lt hpos)
  width := rfl
  height := rfl

/-- A page that has its row since some call still has it after one more, over which an image
may have been put. -/
theorem later (h : StoredSince archive page e p before since r) {v : Event} {r' : ImageRow}
    {win : Option Image} (hwin : v.winner? archive page (run since (run before p)) = win)
    (hrow : ((run (before ++ (since ++ [v])) p).storeOf e).pageRows archive page = [r'])
    (hid : r'.id = r.id) (hwidth : r'.width = (win.bind Image.width).or r.width)
    (hheight : r'.height = (win.bind Image.height).or r.height) :
    StoredSince archive page e p before (since ++ [v]) r' where
  absent := h.absent
  kept := by
    intro n hpos hn
    rcases Nat.lt_or_eq_of_le hn with hlt | rfl
    · obtain ⟨r₀, hrow₀, hid₀⟩ := h.kept n hpos (by simpa [Nat.lt_succ_iff] using hlt)
      rw [List.take_append_of_le_length (by simpa [Nat.lt_succ_iff] using hlt)]
      exact ⟨r₀, hrow₀, hid₀.trans hid.symm⟩
    · rw [List.take_length]
      exact ⟨r', hrow, rfl⟩
  width := by rw [carried_last, hwin, hwidth, h.width]
  height := by rw [carried_last, hwin, hheight, h.height]

end StoredSince

/-- A page that is not there to begin with is not there after some calls, or has had one row
since it was last missing. -/
theorem run_storedSince (hp : p.Serves e)
    (hstart : (p.storeOf e).pageRows archive page = []) (events : List Event) :
    ((run events p).storeOf e).pageRows archive page = [] ∨
      ∃ r before since, ((run events p).storeOf e).pageRows archive page = [r] ∧
        events = before ++ since ∧ StoredSince archive page e p before since r := by
  -- what the last call has done is said of the rows before it, so calls are taken off the end
  induction events using List.reverseRecOn with
  | nil => exact .inl hstart
  | append_singleton events v ih =>
    have hstep := run_pageStep archive page hp events v
    generalize hrows : ((run (events ++ [v]) p).storeOf e).pageRows archive page = rows at hstep
    generalize hwin : v.winner? archive page (run events p) = win at hstep
    cases hstep with
    | taken => exact .inl rfl
    | brought i n habsent =>
      exact .inr ⟨_, events, [v], rfl, rfl,
        (StoredSince.missing habsent n).later hwin hrows rfl (by simp) (by simp)⟩
    | left =>
      refine ih.imp id ?_
      rintro ⟨r, before, since, hrow, rfl, h⟩
      rw [List.append_assoc, hrow] at hrows
      rw [run_append] at hwin
      exact ⟨r, before, since ++ [v], hrow, List.append_assoc ..,
        h.later hwin hrows rfl rfl rfl⟩
    | put i hstored =>
      rcases ih with hnone | ⟨r, before, since, hrow, rfl, h⟩
      · exact absurd hnone hstored
      · rw [List.append_assoc, hrow] at hrows
        rw [run_append] at hwin
        rw [hrow]
        exact .inr ⟨r.updated i, before, since ++ [v], rfl, List.append_assoc ..,
          h.later hwin hrows rfl rfl rfl⟩

/-- The dimensions of a stored page are the last ones that were given, each by itself, by the
images put on the page since it was last missing, and its row has kept its number. -/
theorem page_history (hp : p.Serves e) (hstart : (p.storeOf e).pageRows archive page = [])
    (events : List Event) {r : ImageRow} (hr : r ∈ ((run events p).storeOf e).images)
    (hpage : r.isPage archive page = true) :
    ∃ before since, events = before ++ since ∧ StoredSince archive page e p before since r := by
  have hmem : r ∈ ((run events p).storeOf e).pageRows archive page :=
    List.mem_filter.mpr ⟨hr, hpage⟩
  rcases run_storedSince hp hstart events with hnone | ⟨r', before, since, hrow, hsplit, h⟩
  · rw [hnone] at hmem
    cases hmem
  · rw [hrow] at hmem
    obtain rfl := List.mem_singleton.mp hmem
    exact ⟨before, since, hsplit, h⟩

/-! ## Pages of the first archive -/

def syncFirst (images : List Image) : Event where
  terms := Terms.removing
  call := .syncImages 1 images

/-- A page comes with a width and goes. It comes back with a height, where the last of two
images wins, and then a call fails that gives a width. -/
def comesAgain : List Event :=
  [register, syncFirst [⟨"1.png", 1, some 10, none⟩], syncFirst [],
    syncFirst [⟨"0.png", 1, some 5, none⟩, ⟨"1.png", 1, none, some 7⟩],
    syncFirst [⟨"1.jpg", 1, some 3, some 0x8000000000000000⟩]]

theorem comesAgain_history : ∃ r before since,
    r ∈ ((run comesAgain .blank).storeOf (.memory 0)).images ∧ r.isPage 1 1 = true ∧
      comesAgain = before ++ since ∧ StoredSince 1 1 (.memory 0) .blank before since r ∧
      r.width = none ∧ r.height = some 7 := by
  have hrow : (⟨1, 1, 1, "1.png", none, some 7⟩ : ImageRow) ∈
      ((run comesAgain .blank).storeOf (.memory 0)).images := by decide +kernel
  have hpage : ImageRow.isPage 1 1 ⟨1, 1, 1, "1.png", none, some 7⟩ = true := rfl
  obtain ⟨before, since, hsplit, h⟩ :=
    page_history (p := .blank) ⟨rfl, rfl⟩ rfl comesAgain hrow hpage
  exact ⟨_, before, since, hrow, hpage, hsplit, h, rfl, rfl⟩

end Event

end GalleryCatalog
