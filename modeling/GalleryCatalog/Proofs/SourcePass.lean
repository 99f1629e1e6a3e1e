import Mathlib.Data.List.Basic
import Mathlib.Tactic.SplitIfs
import GalleryCatalog.Proofs.OpenUnit

/-!
# What reconciling sources does

A pass over the sources of an archive never fails once the archive was found. Stale
rows go first, then named fresh sources come at the end, so the archive's list is
what was kept in its old order and then what is new. No other table is touched.
-/

set_option autoImplicit false

namespace GalleryCatalog

namespace Store

/-- The store with a source row at the end. -/
def withSource (archive : Int) (s : Store) (x : Source) : Store :=
  { s with
    sources := s.sources ++ [⟨nextId (s.sources.map (·.id)), archive, x.name.getD "", x.url⟩] }

/-- The store without an archive's rows of a source. -/
def withoutSource (archive : Int) (s : Store) (x : Source) : Store :=
  { s with sources := s.sources.filter fun r => ¬ (r.archive = archive ∧ r.source = x) }

theorem mem_sourcesOf {s : Store} {archive : Int} {x : Source} :
    x ∈ s.sourcesOf archive ↔ ∃ r ∈ s.sources, r.archive = archive ∧ r.source = x := by
  simp [sourcesOf, and_assoc]

theorem listSources_ok {archive : Int} (h : fits archive = true) (s : Store) :
    listSources archive s = .ok (s.sourcesOf archive) s :=
  Work.requires_ok (by simp [h]) _ s

theorem addSource_ok {archive : Int} (h : fits archive = true) {x : Source}
    (hx : Reconcile.isNamed x = true) (s : Store) :
    addSource archive x s = .ok () (s.withSource archive x) := by
  rcases x with ⟨_ | name, url⟩
  · simp [Reconcile.isNamed, Source.givenName] at hx
  · exact Work.requires_ok (by simp [h]) _ s

theorem deleteSource_ok {archive : Int} (h : fits archive = true) (x : Source) (s : Store) :
    deleteSource archive x s = .ok () (s.withoutSource archive x) :=
  Work.requires_ok (by simp [h]) _ s

/-! ## The sources of an archive -/

theorem withSource_sourcesOf (archive : Int) (s : Store) {x : Source}
    (hx : Reconcile.isNamed x = true) :
    (s.withSource archive x).sourcesOf archive = s.sourcesOf archive ++ [x] := by
  rcases x with ⟨_ | name, url⟩
  · simp [Reconcile.isNamed, Source.givenName] at hx
  · simp [withSource, sourcesOf, SourceRow.source]

theorem withoutSource_sourcesOf (archive : Int) (s : Store) (x : Source) :
    (s.withoutSource archive x).sourcesOf archive =
      (s.sourcesOf archive).filter fun y => y ≠ x := by
  simp only [withoutSource, sourcesOf, List.filter_filter, List.filter_map]
  congr 1
  apply List.filter_congr
  intro r _
  by_cases ha : r.archive = archive <;> simp [ha]

theorem withSources_sourcesOf (archive : Int) (xs : List Source) (s : Store)
    (hx : ∀ x ∈ xs, Reconcile.isNamed x = true) :
    (xs.foldl (withSource archive) s).sourcesOf archive = s.sourcesOf archive ++ xs := by
  induction xs generalizing s with
  | nil => simp
  | cons x xs ih =>
    rw [List.foldl_cons, ih _ fun y hy => hx y (by simp [hy]),
      withSource_sourcesOf archive s (hx x (by simp))]
    simp

theorem withoutSources_sourcesOf (archive : Int) (xs : List Source) (s : Store) :
    (xs.foldl (withoutSource archive) s).sourcesOf archive =
      (s.sourcesOf archive).filter fun y => !xs.contains y := by
  induction xs generalizing s with
  | nil => exact (List.filter_true _).symm
  | cons x xs ih =>
    rw [List.foldl_cons, ih, withoutSource_sourcesOf, List.filter_filter]
    apply List.filter_congr
    intro y _
    by_cases hy : y = x <;> simp [hy]

/-- The store after a pass over the sources of an archive. -/
def afterSources (archive : Int) (rules : List SourceRule) (merge : Bool)
    (incoming : List Source) (s : Store) : Store :=
  let wanted := normalizeSources rules incoming
  let current := s.sourcesOf archive
  let stale := Reconcile.staleSources merge wanted current
  let fresh := Reconcile.freshSources wanted current
  (fresh.filter Reconcile.isNamed).foldl (withSource archive)
    (stale.foldl (withoutSource archive) s)

/-- A pass over sources touches no other table. -/
theorem afterSources_frame (archive : Int) (rules : List SourceRule) (merge : Bool)
    (incoming : List Source) (s : Store) :
    ∃ rows, s.afterSources archive rules merge incoming = { s with sources := rows } := by
  let others (t : Store) : Store := { t with sources := [] }
  have hstore := Work.foldl_view (f := withSource archive) others (fun _ _ => rfl)
  have hdelete := Work.foldl_view (f := withoutSource archive) others (fun _ _ => rfl)
  have hsame : others (s.afterSources archive rules merge incoming) = others s :=
    (hstore _ _).trans (hdelete _ s)
  exact ⟨_, congrArg (fun t : Store =>
    { t with sources := (s.afterSources archive rules merge incoming).sources }) hsame⟩

theorem afterSources_sourcesOf (archive : Int) (rules : List SourceRule) (merge : Bool)
    (incoming : List Source) (s : Store) :
    (s.afterSources archive rules merge incoming).sourcesOf archive =
      ((s.sourcesOf archive).filter fun x =>
        merge || (normalizeSources rules incoming).contains x) ++
      (Reconcile.freshSources (normalizeSources rules incoming) (s.sourcesOf archive)).filter
        Reconcile.isNamed := by
  unfold afterSources
  rw [withSources_sourcesOf _ _ _ fun x hx => (List.mem_filter.mp hx).2,
    withoutSources_sourcesOf]
  congr 1
  apply List.filter_congr
  intro x hx
  cases merge <;> simp [Reconcile.staleSources, hx]

/-- With every stored source named, the archive is left with what was merged and with the
named sources of the list. -/
theorem mem_afterSources {archive : Int} {rules : List SourceRule} {merge : Bool}
    {incoming : List Source} {s : Store}
    (hnamed : ∀ x ∈ s.sourcesOf archive, Reconcile.isNamed x = true) {x : Source} :
    x ∈ (s.afterSources archive rules merge incoming).sourcesOf archive ↔
      merge = true ∧ x ∈ s.sourcesOf archive ∨
        x ∈ normalizeSources rules incoming ∧ Reconcile.isNamed x = true := by
  rw [afterSources_sourcesOf]
  simp only [List.mem_append, List.mem_filter, Reconcile.freshSources, Bool.or_eq_true,
    List.contains_iff_mem, Bool.not_eq_true']
  constructor
  · rintro (⟨hx, hmerge | hwanted⟩ | ⟨⟨hwanted, -⟩, hx⟩)
    · exact Or.inl ⟨hmerge, hx⟩
    · exact Or.inr ⟨hwanted, hnamed x hx⟩
    · exact Or.inr ⟨hwanted, hx⟩
  · rintro (⟨hmerge, hx⟩ | ⟨hwanted, hx⟩)
    · exact Or.inl ⟨hx, Or.inl hmerge⟩
    · by_cases hstored : x ∈ s.sourcesOf archive
      · exact Or.inl ⟨hstored, Or.inr hwanted⟩
      · exact Or.inr ⟨⟨hwanted, by simpa using hstored⟩, hx⟩

end Store

namespace Reconcile

theorem isNamed_iff {x : Source} :
    isNamed x = true ↔ ∃ name, x.name = some name ∧ name ≠ "" := by
  rcases x with ⟨_ | name, url⟩ <;> simp [isNamed, Source.givenName, Option.filter]

/-- What a pass over sources counts. -/
def sourceOutcome (rules : List SourceRule) (merge : Bool) (incoming current : List Source) :
    SourceOutcome :=
  let wanted := normalizeSources rules incoming
  let fresh := freshSources wanted current
  { inserted := (fresh.filter isNamed).length
    deleted := (staleSources merge wanted current).length
    skipped := (fresh.filter fun x => !isNamed x).length }

/-- The workspace after a source was stored or skipped. -/
def afterSource (archive : Int) (verbose : Bool) (w : Workspace) (x : Source) : Workspace :=
  if isNamed x then w
  else if verbose then w.told (.namelessSource archive x.url)
  else w

theorem storeSource_on {archive : Int} (h : fits archive = true) (verbose : Bool) (x : Source)
    (w : Workspace) (s : Store) :
    storeSource archive verbose x (w.on s) =
      .ok () ((afterSource archive verbose w x).on
        (if isNamed x then s.withSource archive x else s)) := by
  unfold storeSource afterSource
  by_cases hx : isNamed x = true
  · simp only [hx, if_true]
    exact Work.access_ok (Store.addSource_ok h hx s) w
  · cases verbose with
    | true => simpa [hx] using Work.notify_on (.namelessSource archive x.url) s w
    | false => simp [hx, pure, EStateM.pure]

theorem deleteSource_on {archive : Int} (h : fits archive = true) (x : Source)
    (w : Workspace) (s : Store) :
    Work.access (Repository.deleteSource archive x) (w.on s) =
      .ok () (w.on (s.withoutSource archive x)) :=
  Work.access_ok (Store.deleteSource_ok h x s) w

theorem sources_on {archive : Int} (h : fits archive = true) (rules : List SourceRule)
    (merge verbose : Bool) (incoming : List Source) (w : Workspace) (s : Store) :
    sources archive rules merge verbose incoming (w.on s) =
      .ok (sourceOutcome rules merge incoming (s.sourcesOf archive))
        (((freshSources (normalizeSources rules incoming) (s.sourcesOf archive)).foldl
          (afterSource archive verbose) w).on (s.afterSources archive rules merge incoming)) := by
  have hlist : Work.access (Repository.sources archive) (w.on s) =
      .ok (s.sourcesOf archive) (w.on s) := Work.access_ok (Store.listSources_ok h s) w
  have hdelete := Work.forM_on (fun w _ => w)
    (staleSources merge (normalizeSources rules incoming) (s.sourcesOf archive))
    (fun x _ w s => deleteSource_on h x w s) w s
  rw [List.foldl_fixed] at hdelete
  have hstore := Work.forM_on (afterSource archive verbose)
    (freshSources (normalizeSources rules incoming) (s.sourcesOf archive))
    (fun x _ w s => storeSource_on h verbose x w s) w
  unfold sources
  rw [Work.bind_of_ok hlist, Work.bind_of_ok hdelete, Work.bind_of_ok (hstore _)]
  simp only [pure, EStateM.pure, sourceOutcome, Store.afterSources, List.foldl_filter]

/-- The number of an archive is looked at before anything is done. -/
theorem sources_unfit {archive : Int} (h : fits archive = false) (rules : List SourceRule)
    (merge verbose : Bool) (incoming : List Source) (w : Workspace) (s : Store) :
    sources archive rules merge verbose incoming (w.on s) = .error outOfRange (w.on s) :=
  Work.bind_of_error (Work.access_error (Work.requires_error (by simp [h]) _ s) w)

/-- Fresh sources that are skipped are the wanted ones without a name. -/
theorem freshSources_nameless {wanted current : List Source}
    (hnamed : ∀ x ∈ current, isNamed x = true) :
    (freshSources wanted current).filter (fun x => !isNamed x) =
      wanted.filter fun x => !isNamed x := by
  unfold freshSources
  rw [List.filter_filter]
  apply List.filter_congr
  intro x _
  by_cases hx : x ∈ current
  · simp [hnamed x hx]
  · simp [hx]

theorem afterSource_unit (archive : Int) (verbose : Bool) (xs : List Source) (w : Workspace) :
    (xs.foldl (afterSource archive verbose) w).unit = w.unit ∧
      (xs.foldl (afterSource archive verbose) w).tree = w.tree := by
  induction xs generalizing w with
  | nil => exact ⟨rfl, rfl⟩
  | cons x xs ih =>
    obtain ⟨hunit, htree⟩ := ih (afterSource archive verbose w x)
    rw [List.foldl_cons, hunit, htree]
    unfold afterSource
    split_ifs <;> simp

end Reconcile

end GalleryCatalog
