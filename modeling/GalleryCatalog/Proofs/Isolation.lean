import Mathlib.Data.List.Induction
import GalleryCatalog.Proofs.OpenUnit

/-!
# Isolation of a unit of work

A unit of work may be used in any way: opened twice, used while it is closed, left after a
failure, opened again. What it leaves for others are the rows that its last commit has found,
and a rollback comes back to these rows. Nothing changes when a closed one is used, or an
open one is opened.
-/

set_option autoImplicit false

namespace GalleryCatalog

namespace UnitOfWork

/-- Leave the unit of work. After a failure it is rolled back first, and closed in any case. -/
def leave (failed : Bool) : UnitStep Unit :=
  tryFinally (if failed then rollback else pure ()) exit

/-- One thing that is done with a unit of work. The repositories are used in any way. -/
inductive Move : Type 1 where
  | enter
  | use {α : Type} (x : Access α)
  | commit
  | rollback
  | leave (failed : Bool)

def Move.step : Move → UnitStep Unit
  | .enter => UnitOfWork.enter
  | .use x => (fun _ => ()) <$> UnitOfWork.use x
  | .commit => UnitOfWork.commit
  | .rollback => UnitOfWork.rollback
  | .leave failed => UnitOfWork.leave failed

def run (moves : List Move) (u : UnitOfWork) : UnitOfWork :=
  moves.foldl (fun u m => Work.left m.step u) u

/-- No commit among some moves returns. -/
def Unsaved (u : UnitOfWork) (moves : List Move) : Prop :=
  ∀ earlier, earlier ++ [.commit] <+: moves → Work.returns commit (run earlier u) = false

/-- The rows that the last commit which returned has found in its view, or those at the start
if none has returned. -/
inductive LastSaved (u : UnitOfWork) (moves : List Move) : Store → Prop
  | start (h : Unsaved u moves) : LastSaved u moves u.committed
  | commit {s : Store} (before since : List Move) (hsplit : moves = before ++ .commit :: since)
    (hview : (run before u).session = some (.live s))
    (h : Unsaved (run (before ++ [.commit]) u) since) : LastSaved u moves s

/-- What can be done next with a unit of work that has saved some rows. Without a session it has
no repositories, and can only be opened, and then it shows the rows. In a session it has
repositories, and can be rolled back to the rows and stays open, or left in any way, and then
both are given up. While it shows rows it can save them. -/
structure Isolated (u : UnitOfWork) (s : Store) : Prop where
  together : u.repositories = u.session.isSome
  closed : u.session = none →
    UnitOfWork.enter u = .ok () (.opened s (.live s)) ∧
      (∀ (α : Type) (x : Access α), UnitOfWork.use x u = .error (.misuse .notOpen) u) ∧
      UnitOfWork.commit u = .error (.misuse .notOpen) u ∧
      UnitOfWork.rollback u = .error (.misuse .notOpen) u ∧
      ∀ failed, leave failed u = .error (.misuse .notOpen) u
  opened : ∀ view, u.session = some view →
    UnitOfWork.enter u = .error (.misuse .alreadyOpen) u ∧
      UnitOfWork.rollback u = .ok () (.opened s (.live s)) ∧
      ∀ failed, leave failed u = .ok () (.closed s)
  live : ∀ s', u.session = some (.live s') →
    UnitOfWork.commit u = .ok () (.opened s' (.live s'))

/-- To roll back first makes no difference. -/
theorem leave_eq_exit (failed : Bool) : leave failed = exit := by
  funext u
  rw [u.eq_of]
  cases failed <;> cases u.session <;> rfl

theorem commit_live {u : UnitOfWork} {s : Store} (h : u.session = some (.live s)) :
    commit u = .ok () (.opened s (.live s)) := by
  simp only [commit, h]

theorem isolated (u : UnitOfWork) : u.Isolated u.committed := by
  refine ⟨u.together, fun hclosed => ?_, fun view hopen => ?_, fun s' hlive => commit_live hlive⟩
  · rw [eq_closed hclosed]
    exact ⟨rfl, fun _ _ => rfl, rfl, rfl, fun failed => by rw [leave_eq_exit]; rfl⟩
  · rw [eq_opened hopen]
    exact ⟨rfl, rfl, fun failed => by rw [leave_eq_exit]; rfl⟩

/-- A commit that returns saves what the view shows, and nothing else changes what is saved. -/
theorem step_committed (m : Move) (u : UnitOfWork) :
    (Work.left m.step u).committed = u.committed ∧
        (m = .commit → Work.returns commit u = false) ∨
      m = .commit ∧ Work.returns commit u = true ∧
        u.session = some (.live (Work.left m.step u).committed) := by
  rw [u.eq_of]
  cases m with
  | commit =>
    cases u.session with
    | none => exact .inl ⟨rfl, fun _ => rfl⟩
    | some view =>
      cases view with
      | live s' => exact .inr ⟨rfl, rfl, rfl⟩
      | undone => exact .inl ⟨rfl, fun _ => rfl⟩
  | use x =>
    refine .inl ⟨?_, fun h => by cases h⟩
    cases u.session with
    | none => rfl
    | some view =>
      cases hx : x view <;>
        simp [Move.step, Work.left, use, of, opened, Functor.map, EStateM.map, hx]
  | leave failed =>
    refine .inl ⟨?_, fun h => by cases h⟩
    rw [Move.step, leave_eq_exit]
    cases u.session <;> rfl
  | _ =>
    refine .inl ⟨?_, fun h => by cases h⟩
    cases u.session <;> rfl

theorem run_append (moves later : List Move) (u : UnitOfWork) :
    run (moves ++ later) u = run later (run moves u) :=
  List.foldl_append

theorem run_concat (moves : List Move) (m : Move) (u : UnitOfWork) :
    run (moves ++ [m]) u = Work.left m.step (run moves u) :=
  run_append moves [m] u

section Concat

variable {u : UnitOfWork} {moves : List Move} {m : Move}

theorem unsaved_nil (u : UnitOfWork) : Unsaved u [] :=
  fun earlier hstart => by simp at hstart

theorem unsaved_concat : Unsaved u (moves ++ [m]) ↔
    Unsaved u moves ∧ (m = .commit → Work.returns UnitOfWork.commit (run moves u) = false) := by
  constructor
  · intro h
    refine ⟨fun earlier hstart => h earlier (hstart.trans (List.prefix_append ..)), ?_⟩
    rintro rfl
    exact h moves List.prefix_rfl
  · rintro ⟨h, hm⟩ earlier hstart
    rcases List.prefix_concat_iff.mp hstart with hsame | hearlier
    · obtain ⟨rfl, hlast⟩ := List.append_inj' hsame rfl
      exact hm (List.singleton_inj.mp hlast).symm
    · exact h earlier hearlier

theorem LastSaved.concat {s : Store} (h : LastSaved u moves s)
    (hm : m = .commit → Work.returns UnitOfWork.commit (run moves u) = false) :
    LastSaved u (moves ++ [m]) s := by
  cases h with
  | start h => exact .start (unsaved_concat.mpr ⟨h, hm⟩)
  | commit before since hsplit hview h =>
    rw [hsplit, List.append_cons, run_append] at hm
    exact .commit before (since ++ [m]) (by simp [hsplit]) hview (unsaved_concat.mpr ⟨h, hm⟩)

end Concat

theorem Unsaved.committed {u : UnitOfWork} {moves : List Move} (h : Unsaved u moves) :
    (run moves u).committed = u.committed := by
  induction moves using List.reverseRecOn with
  | nil => rfl
  | append_singleton moves m ih =>
    obtain ⟨hmoves, hm⟩ := unsaved_concat.mp h
    rw [run_concat]
    rcases step_committed m (run moves u) with ⟨hsame, -⟩ | ⟨hcommit, hreturns, -⟩
    · exact hsame.trans (ih hmoves)
    · simp [hm hcommit] at hreturns

theorem LastSaved.committed {u : UnitOfWork} {moves : List Move} {s : Store}
    (h : LastSaved u moves s) : (run moves u).committed = s := by
  cases h with
  | start h => exact h.committed
  | commit before since hsplit hview h =>
    subst hsplit
    rw [List.append_cons, run_append, h.committed, run_concat]
    exact congrArg UnitOfWork.committed (Work.left_of_ok (commit_live hview))

/-- What is saved is always what the last commit has found. -/
theorem run_lastSaved (u : UnitOfWork) (moves : List Move) :
    LastSaved u moves (run moves u).committed := by
  induction moves using List.reverseRecOn with
  | nil => exact .start (unsaved_nil u)
  | append_singleton moves m ih =>
    rw [run_concat]
    rcases step_committed m (run moves u) with ⟨hsame, hm⟩ | ⟨rfl, -, hview⟩
    · rw [hsame]
      exact ih.concat hm
    · exact .commit moves [] rfl hview (unsaved_nil _)

/-- After any moves from a closed unit of work on, there is one answer to which rows the last
commit has found, or the start if there was none. These are the rows that are seen when it is
opened again, and that a rollback shows while it is open. To use it while it is closed, or to
open it while it is open, fails and changes nothing. -/
theorem run_isolated (s₀ : Store) (moves : List Move) :
    ∃ s, (∀ s', LastSaved (.closed s₀) moves s' ↔ s' = s) ∧
      (run moves (.closed s₀)).Isolated s := by
  refine ⟨_, fun s' => ⟨fun h => h.committed.symm, ?_⟩, isolated _⟩
  rintro rfl
  exact run_lastSaved _ moves

/-- An archive is added and saved. Adding it again undoes the view, so that the second commit
fails too. -/
example :
    let add : Move := .use (Repository.addArchive
      ⟨none, some "a1", some "First", ⟨⟨2024, 1, 1⟩, ⟨0, 0, 0, 0⟩, none⟩⟩)
    let u := run [.enter, add, .commit, add, .commit, .leave true] {}
    u.session = none ∧ u.committed.archives.map ArchiveRow.hash = ["a1"] := by
  decide +kernel

end UnitOfWork

end GalleryCatalog
