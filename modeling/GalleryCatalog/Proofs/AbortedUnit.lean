import Mathlib.Tactic.SplitIfs
import GalleryCatalog.Proofs.ImagePass
import GalleryCatalog.Proofs.Isolation

/-!
# Units of work that are undone

An archive that is refused undoes the unit of work. From then on every statement fails, and
so does a commit, until the unit of work is rolled back or left. What had been done since the
last commit is gone by then. After a rollback the rows of that commit are seen, and work goes
on as in a unit of work that was just opened. No other failure undoes it.
-/

set_option autoImplicit false

namespace GalleryCatalog

/-! ## Archives that are refused -/

/-- Why an archive cannot be added. -/
inductive Store.Refuses (s : Store) (a : NewArchive) : Prop
  | undated (h : a.created.universal? = none)
  | outOfRange {id : Int} (h : a.id = some id) (hid : fits id = false)
  | noHash (h : a.hash = none)
  | noTitle (h : a.title = none)
  | takenNumber {id : Int} (h : a.id = some id) (hid : s.archives.any (·.id = id) = true)
  | takenHash {hash : String} (h : a.hash = some hash)
      (hhash : s.archives.any (·.hash = hash) = true)

theorem Store.addArchive_returns_iff (s : Store) (a : NewArchive) :
    Work.returns (addArchive a) s = true ↔ a.created.universal? ≠ none ∧
      a.id.toList.all fits = true ∧ ∃ hash title, a.hash = some hash ∧ a.title = some title ∧
        s.archives.any (·.id = a.id.getD (nextId (s.archives.map (·.id)))) = false ∧
        s.archives.any (·.hash = hash) = false := by
  rcases a with ⟨given, hash, title, moment⟩
  unfold addArchive
  cases hdate : moment.universal? with
  | none => simp [Work.returns]
  | some created =>
    by_cases hgiven : given.toList.all fits = true
    · rcases hash with _ | hash
      · simp [Work.returns, Work.requires_ok hgiven]
      rcases title with _ | title
      · simp [Work.returns, Work.requires_ok hgiven]
      simp only [Work.returns, Work.requires_ok hgiven, Work.get_bind_apply]
      split_ifs with hnumber hhash
      · simp [hnumber]
      · refine iff_of_false (by simp) ?_
        rintro ⟨-, -, hash', -, hsame, -, -, hfree⟩
        obtain rfl := Option.some.inj hsame
        exact Bool.eq_false_iff.mp hfree hhash
      · exact iff_of_true rfl ⟨by simp, hgiven, hash, title, rfl, rfl, Bool.not_eq_true _ ▸ hnumber,
          Bool.not_eq_true _ ▸ hhash⟩
    · simp [Work.returns, Work.requires_error hgiven, hgiven]

theorem Store.refuses_iff (s : Store) (a : NewArchive) :
    s.Refuses a ↔ Work.returns (addArchive a) s = false := by
  rw [← Bool.not_eq_true, addArchive_returns_iff]
  constructor
  · rintro h ⟨hdate, hfits, hash, title, hhash, htitle, hnumber, hfree⟩
    cases h with
    | undated h => exact hdate h
    | outOfRange h hid => simp [h, hid] at hfits
    | noHash h => simp [h] at hhash
    | noTitle h => simp [h] at htitle
    | takenNumber h hid => simp [h, hid] at hnumber
    | takenHash h htaken =>
      obtain rfl := Option.some.inj (hhash.symm.trans h)
      simp [htaken] at hfree
  · intro h
    by_contra hnot
    have hfits : a.id.toList.all fits = true := by
      cases hid : a.id with
      | none => rfl
      | some id =>
        have hin : fits id = true := by
          by_contra hout
          exact hnot (.outOfRange hid (Bool.eq_false_iff.mpr hout))
        simp [hin]
    obtain ⟨hash, hhash⟩ := Option.ne_none_iff_exists'.mp fun h => hnot (.noHash h)
    obtain ⟨title, htitle⟩ := Option.ne_none_iff_exists'.mp fun h => hnot (.noTitle h)
    refine h ⟨fun hdate => hnot (.undated hdate), hfits, hash, title, hhash, htitle, ?_, ?_⟩
    · cases hid : a.id with
      | none =>
        refine Bool.eq_false_iff.mpr fun htaken => ?_
        obtain ⟨r, hr, hid⟩ := List.any_eq_true.mp htaken
        exact nextId_not_mem _ (List.mem_map.mpr ⟨r, hr, by simpa using hid⟩)
      | some id => exact Bool.eq_false_iff.mpr fun htaken => hnot (.takenNumber hid htaken)
    · exact Bool.eq_false_iff.mpr fun htaken => hnot (.takenHash hhash htaken)

/-! ## Calls of repositories -/

namespace Statement

variable {α : Type}

theorem left_onView (x : Statement α) (s : Store) :
    Work.left x.onView (.live s) = .live (Work.left x s) := by
  cases h : x s <;> simp [Work.left, onView, h]

theorem left_orUndo (x : Statement α) (s : Store) :
    Work.left x.orUndo (.live s) =
      if Work.returns x s then .live (Work.left x s) else .undone := by
  cases h : x s <;> simp [Work.left, Work.returns, orUndo, h]

end Statement

inductive RepositoryCall where
  | addArchive (a : NewArchive)
  | archive (id : Int)
  | archiveByHash (hash : Option String)
  | sources (id : Int)
  | addSource (id : Int) (source : Source)
  | deleteSource (id : Int) (source : Source)
  | images (id : Int)
  | upsertImages (id : Int) (images : List Image)
  | deletePages (id : Int) (pages : List Int)
  | findTags (tags : List Tag)
  | upsertTags (tags : List Tag)
  | links (id : Int)
  | addLinks (id : Int) (tags : List Int)
  | deleteLink (id tag : Int)

namespace RepositoryCall

def Answer : RepositoryCall → Type
  | .addArchive _ => Int
  | .archive _ | .archiveByHash _ => Option ArchiveRow
  | .sources _ => List Source
  | .images _ | .upsertImages _ _ => List Image
  | .findTags _ | .upsertTags _ | .links _ => List TagRow
  | .addSource _ _ | .deleteSource _ _ | .deletePages _ _ | .addLinks _ _ | .deleteLink _ _ => Unit

def access : (c : RepositoryCall) → Access c.Answer
  | .addArchive a => Repository.addArchive a
  | .archive id => Repository.archive? id
  | .archiveByHash hash => Repository.archiveByHash? hash
  | .sources id => Repository.sources id
  | .addSource id source => Repository.addSource id source
  | .deleteSource id source => Repository.deleteSource id source
  | .images id => Repository.images id
  | .upsertImages id pages => Repository.upsertImages id pages
  | .deletePages id pages => Repository.deletePages id pages
  | .findTags tags => Repository.findTags tags
  | .upsertTags tags => Repository.upsertTags tags
  | .links id => Repository.links id
  | .addLinks id tags => Repository.addLinks id tags
  | .deleteLink id tag => Repository.deleteLink id tag

/-- The statement of a call. -/
def statement : (c : RepositoryCall) → Statement c.Answer
  | .addArchive a => Store.addArchive a
  | .archive id => Store.archive? id
  | .archiveByHash hash => Store.archiveByHash? hash
  | .sources id => Store.listSources id
  | .addSource id source => Store.addSource id source
  | .deleteSource id source => Store.deleteSource id source
  | .images id => Store.listImages id
  | .upsertImages id pages => Store.upsertImages id pages
  | .deletePages id pages => Store.deletePages id pages
  | .findTags tags => Store.findTags tags
  | .upsertTags tags => Store.upsertTags tags
  | .links id => Store.listLinks id
  | .addLinks id tags => Store.addLinks id tags
  | .deleteLink id tag => Store.deleteLink id tag

/-- Whether a call runs its statement. An empty batch does not. -/
def Reaches : RepositoryCall → Prop
  | .upsertImages _ pages => pages ≠ []
  | .deletePages _ pages => pages ≠ []
  | .findTags tags | .upsertTags tags => tags ≠ []
  | .addLinks _ tags => tags ≠ []
  | _ => True

/-- How a statement runs. Only that which adds an archive undoes the view when it fails. -/
def onView : (c : RepositoryCall) → Access c.Answer
  | .addArchive a => (Store.addArchive a).orUndo
  | c => c.statement.onView

/-- The store after a call, unless the call undoes the view. -/
def after? (s : Store) : RepositoryCall → Option Store
  | .addArchive a =>
    if Work.returns (Store.addArchive a) s then some (Work.left (Store.addArchive a) s) else none
  | c => some (Work.left c.statement s)

theorem access_reaches {c : RepositoryCall} (h : c.Reaches) : c.access = c.onView := by
  cases c <;> first | rfl | exact if_neg h

/-- An empty batch gives an empty answer. -/
theorem access_idle {c : RepositoryCall} (h : ¬ c.Reaches) (view : View) :
    ∃ a, c.access view = .ok a view := by
  cases c with
  | upsertImages id pages => exact ⟨[], congrFun (if_pos (not_not.mp h)) view⟩
  | deletePages id pages => exact ⟨(), congrFun (if_pos (not_not.mp h)) view⟩
  | findTags tags => exact ⟨[], congrFun (if_pos (not_not.mp h)) view⟩
  | upsertTags tags => exact ⟨[], congrFun (if_pos (not_not.mp h)) view⟩
  | addLinks id tags => exact ⟨(), congrFun (if_pos (not_not.mp h)) view⟩
  | _ => exact absurd trivial h

theorem access_undone {c : RepositoryCall} (h : c.Reaches) :
    c.access .undone = .error .undone .undone := by
  rw [access_reaches h]
  cases c <;> rfl

/-- A statement without anything to do would change nothing either. -/
theorem statement_idle {c : RepositoryCall} (h : ¬ c.Reaches) (s : Store) :
    Work.left c.statement s = s := by
  cases c with
  | upsertImages id pages =>
    obtain rfl := not_not.mp h
    have hrun := Store.upsertImages_run id [] s
    cases hrefused : refusal? (5 * ([] : List Image).length)
        (id :: [].flatMap Store.imageIntegers) with
    | none =>
      rw [hrefused] at hrun
      exact Work.left_of_ok hrun
    | some e =>
      rw [hrefused] at hrun
      exact Work.left_of_error hrun
  | deletePages id pages =>
    obtain rfl := not_not.mp h
    have hrun := Store.deletePages_run id [] s
    cases hrefused : refusal? (([] : List Int).length + 1) [id] with
    | none =>
      rw [hrefused] at hrun
      exact (Work.left_of_ok hrun).trans (Store.withoutPages_nil id s)
    | some e =>
      rw [hrefused] at hrun
      exact Work.left_of_error hrun
  | findTags tags =>
    obtain rfl := not_not.mp h
    rfl
  | upsertTags tags =>
    obtain rfl := not_not.mp h
    rfl
  | addLinks id tags =>
    obtain rfl := not_not.mp h
    rfl
  | _ => exact absurd trivial h

theorem onView_other {c : RepositoryCall} (h : ∀ a, c ≠ .addArchive a) :
    c.onView = c.statement.onView := by
  cases c <;> first | rfl | exact absurd rfl (h _)

theorem after?_other {c : RepositoryCall} (h : ∀ a, c ≠ .addArchive a) (s : Store) :
    after? s c = some (Work.left c.statement s) := by
  cases c <;> first | rfl | exact absurd rfl (h _)

theorem left_onView (c : RepositoryCall) (s : Store) :
    Work.left c.onView (.live s) = (after? s c).elim .undone .live := by
  by_cases h : ∃ a, c = .addArchive a
  · obtain ⟨a, rfl⟩ := h
    have hview : Work.left (onView (.addArchive a)) (.live s) = _ := (Store.addArchive a).left_orUndo s
    rw [hview, after?]
    split_ifs <;> rfl
  · have hother : ∀ a, c ≠ .addArchive a := fun a ha => h ⟨a, ha⟩
    rw [onView_other hother, after?_other hother]
    exact c.statement.left_onView s

/-- The view after a call. -/
theorem left_access (c : RepositoryCall) (s : Store) :
    Work.left c.access (.live s) = (after? s c).elim .undone .live := by
  by_cases hreaches : c.Reaches
  · rw [access_reaches hreaches]
    exact left_onView c s
  · obtain ⟨a, haccess⟩ := access_idle hreaches (.live s)
    rw [Work.left_of_ok haccess]
    have hother : ∀ a, c ≠ .addArchive a := by
      rintro a rfl
      exact hreaches trivial
    rw [after?_other hother, statement_idle hreaches]
    rfl

end RepositoryCall

/-- The store after calls one after another, unless one of them undoes the view. -/
def Store.afterCalls? (s : Store) (calls : List RepositoryCall) : Option Store :=
  calls.foldlM RepositoryCall.after? s

/-! ## Units of work -/

namespace UnitOfWork

/-- One thing that is done with a unit of work and its repositories. -/
inductive Step where
  | enter
  | call (c : RepositoryCall)
  | commit
  | rollback
  | leave (failed : Bool)

def Step.move : Step → Move
  | .enter => .enter
  | .call c => .use c.access
  | .commit => .commit
  | .rollback => .rollback
  | .leave failed => .leave failed

/-- Whether a step gives up what was not committed. -/
def Step.GivesUp : Step → Prop
  | .rollback | .leave _ => True
  | _ => False

/-- The moves of some steps. -/
abbrev moves (steps : List Step) : List Move :=
  steps.map Step.move

/-- The unit of work after some steps, each of which may fail. -/
def perform (steps : List Step) (u : UnitOfWork) : UnitOfWork :=
  run (moves steps) u

/-- What can be done with a unit of work that was undone, when some rows were committed last.
Every statement fails, and so does a commit. Only a rollback and an exit help. -/
structure Aborted (u : UnitOfWork) (saved : Store) : Prop where
  call : ∀ c : RepositoryCall, c.Reaches → use c.access u = .error (.store .undone) u
  idle : ∀ c : RepositoryCall, ¬ c.Reaches → ∃ a, use c.access u = .ok a u
  commit : UnitOfWork.commit u = .error (.store .undone) u
  enter : UnitOfWork.enter u = .error (.misuse .alreadyOpen) u
  rollback : UnitOfWork.rollback u = .ok () (.opened saved (.live saved))
  leave : ∀ failed, UnitOfWork.leave failed u = .ok () (.closed saved)

theorem aborted (saved : Store) : Aborted (.opened saved .undone) saved where
  call c h := by simp only [use, opened, RepositoryCall.access_undone h]
  idle c h := by
    obtain ⟨a, ha⟩ := RepositoryCall.access_idle h .undone
    exact ⟨a, by simp only [use, opened, ha]⟩
  commit := rfl
  enter := rfl
  rollback := rfl
  leave failed := by rw [leave_eq_exit]; rfl

theorem perform_append (steps later : List Step) (u : UnitOfWork) :
    perform (steps ++ later) u = perform later (perform steps u) := by
  unfold perform moves
  rw [List.map_append, run_append]

theorem perform_cons (step : Step) (steps : List Step) (u : UnitOfWork) :
    perform (step :: steps) u = perform steps (Work.left step.move.step u) := rfl

theorem left_call (c : RepositoryCall) (saved : Store) (view : View) :
    Work.left (Step.call c).move.step (.opened saved view) =
      .opened saved (Work.left c.access view) := by
  cases hrun : c.access view <;>
    simp [Step.move, Move.step, Work.left, use, opened, Functor.map, EStateM.map, hrun]

/-- Nothing but a rollback or an exit brings an undone unit of work back. -/
theorem perform_aborted {steps : List Step} (h : ∀ step ∈ steps, ¬ step.GivesUp) (saved : Store) :
    perform steps (.opened saved .undone) = .opened saved .undone := by
  induction steps with
  | nil => rfl
  | cons step steps ih =>
    have hstep : Work.left step.move.step (.opened saved .undone) = .opened saved .undone := by
      cases step with
      | enter => exact Work.left_of_error (aborted saved).enter
      | commit => exact Work.left_of_error (aborted saved).commit
      | call c =>
        rw [left_call]
        by_cases hc : c.Reaches
        · rw [Work.left_of_error (RepositoryCall.access_undone hc)]
        · obtain ⟨a, ha⟩ := RepositoryCall.access_idle hc .undone
          rw [Work.left_of_ok ha]
      | rollback => exact absurd trivial (h .rollback (by simp))
      | leave failed => exact absurd trivial (h (.leave failed) (by simp))
    rw [perform_cons, hstep]
    exact ih fun step hs => h step (by simp [hs])

/-- On a live view calls do what their statements do. -/
theorem perform_calls {calls : List RepositoryCall} {s t : Store}
    (h : s.afterCalls? calls = some t) (saved : Store) :
    perform (calls.map .call) (.opened saved (.live s)) = .opened saved (.live t) := by
  induction calls generalizing s with
  | nil =>
    obtain rfl := Option.some.inj h
    rfl
  | cons c calls ih =>
    rw [Store.afterCalls?, List.foldlM_cons] at h
    obtain ⟨s', hc, hrest⟩ := Option.bind_eq_some_iff.mp h
    rw [List.map_cons, perform_cons, left_call, RepositoryCall.left_access, hc]
    exact ih hrest

/-- An archive that is refused undoes the view. -/
theorem access_refused {s : Store} {a : NewArchive} (h : s.Refuses a) :
    ∃ e, (RepositoryCall.addArchive a).access (.live s) = .error e .undone := by
  obtain ⟨e, s', hfails⟩ := Work.eq_error_of_returns ((s.refuses_iff a).mp h)
  refine ⟨e, ?_⟩
  simp only [RepositoryCall.access, Repository.addArchive, Statement.orUndo, hfails]
  rfl

/-- In any use of a unit of work, let an archive be refused. Until a rollback or an exit, the
unit of work cannot be used, and whatever is tried changes nothing. What a rollback shows, and
what an exit leaves, are the rows that the last commit before has found. So what was done
since then is never stored: everything later is as from a unit of work that was just opened on
these rows, and calls that undo nothing can be committed. -/
theorem refused_archive_aborts {s₀ s : Store} {before since : List Step} {a : NewArchive}
    (hopen : (perform before (.closed s₀)).session = some (.live s)) (hrefused : s.Refuses a)
    (hsince : ∀ step ∈ since, ¬ step.GivesUp) :
    ∃ saved, (∀ s', LastSaved (.closed s₀) (moves before) s' ↔ s' = saved) ∧
      (∃ e, use (RepositoryCall.addArchive a).access (perform before (.closed s₀)) =
        .error (.store e) (.opened saved .undone)) ∧
      let u := perform (before ++ .call (.addArchive a) :: since) (.closed s₀)
      u = .opened saved .undone ∧ u.Aborted saved ∧
        (∀ later, perform (.rollback :: later) u = perform (.enter :: later) (.closed saved)) ∧
        (∀ failed later, perform (.leave failed :: later) u = perform later (.closed saved)) ∧
        ∀ calls t, saved.afterCalls? calls = some t →
          perform (.rollback :: calls.map .call ++ [.commit]) u = .opened t (.live t) := by
  obtain ⟨saved, hunit⟩ : ∃ saved, perform before (.closed s₀) = .opened saved (.live s) :=
    ⟨(perform before (.closed s₀)).committed, eq_opened hopen⟩
  have hsaved : ∀ s', LastSaved (.closed s₀) (moves before) s' ↔ s' = saved := by
    have hcommitted : (run (moves before) (.closed s₀)).committed = saved :=
      congrArg UnitOfWork.committed hunit
    refine fun s' => ⟨fun h => h.committed.symm.trans hcommitted, ?_⟩
    rintro rfl
    exact hcommitted ▸ run_lastSaved _ _
  obtain ⟨e, hfails⟩ := access_refused hrefused
  have hundone : perform (before ++ .call (.addArchive a) :: since) (.closed s₀) =
      (.opened saved .undone) := by
    rw [perform_append, hunit, perform_cons, left_call, Work.left_of_error hfails]
    exact perform_aborted hsince saved
  refine ⟨saved, hsaved, ⟨e, by simp only [hunit, use, opened, hfails]⟩, ?_⟩
  dsimp only
  rw [hundone]
  refine ⟨rfl, aborted saved, fun later => rfl, fun failed later => ?_, fun calls t ht => ?_⟩
  · rw [perform_cons]
    exact congrArg _ (Work.left_of_ok ((aborted saved).leave failed))
  · have hrollback : perform [.rollback] (.opened saved .undone) =
        (.opened saved (.live saved)) := rfl
    have hsteps : Step.rollback :: calls.map .call ++ [.commit] =
        [.rollback] ++ (calls.map .call ++ [.commit]) := rfl
    rw [hsteps, perform_append, hrollback, perform_append, perform_calls ht]
    rfl

/-- The first archive is saved, a source is added, and the archive comes a second time. Then the
source is gone, a commit fails, and after a rollback another source can be saved. -/
theorem second_time_aborts :
    let a : NewArchive := ⟨none, some "a1", some "First", ⟨⟨2024, 1, 1⟩, ⟨0, 0, 0, 0⟩, none⟩⟩
    let add (name : String) : RepositoryCall := .addSource 1 ⟨some name, none⟩
    let before : List Step := [.enter, .call (.addArchive a), .commit, .call (add "lost")]
    let u := perform (before ++ .call (.addArchive a) :: [.commit, .call (.sources 1)]) {}
    let v := perform [.rollback, .call (add "kept"), .commit] u
    use (add "none").access u = .error (.store .undone) u ∧
      v.session = some (.live v.committed) ∧
      v.committed.archives.map ArchiveRow.hash = ["a1"] ∧
      v.committed.sources.map SourceRow.name = ["kept"] := by
  intro a add before u v
  have hopen : (perform before {}).session = some (.live
      { archives := [⟨1, "a1", "First", a.created⟩], sources := [⟨1, 1, "lost", none⟩] }) := by
    decide +kernel
  have hsince : ∀ step ∈ [Step.commit, .call (.sources 1)], ¬ step.GivesUp := by
    simp [Step.GivesUp]
  obtain ⟨saved, -, -, -, haborted, -, -, hcalls⟩ :=
    refused_archive_aborts hopen (.takenHash (a := a) rfl (by decide)) hsince
  have hv : v = .opened _ (.live _) := hcalls [add "kept"] _ rfl
  exact ⟨haborted.call (add "none") trivial, by rw [hv]; rfl, by decide +kernel, by decide +kernel⟩

end UnitOfWork

end GalleryCatalog
