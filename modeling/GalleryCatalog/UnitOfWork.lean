import GalleryCatalog.Repository

/-!
# Units of work

A unit of work is closed or open. While it is open it has a session, which is a view of
the committed store, and the repositories that work on it. Only a commit changes the
committed store. A rollback starts over from it, and leaving the unit of work gives up
what was not committed.
-/

set_option autoImplicit false

namespace GalleryCatalog

/-- The repositories are there exactly while a session is. -/
structure UnitOfWork where
  committed : Store := {}
  session : Option View := none
  repositories : Bool := false
  together : repositories = session.isSome := by rfl
  deriving DecidableEq, Repr

/-- Use of a unit of work, or of what binds it to a store, when it is not open, or open
already. -/
inductive Misuse where
  | alreadyOpen
  | notOpen
  | alreadyStarted
  | notStarted
  deriving DecidableEq, Repr

def Misuse.message : Misuse → String
  | .alreadyOpen => "Unit of work is already open"
  | .notOpen => "Unit of work is not open"
  | .alreadyStarted => "SQLAlchemy adapter already started; pass force=True to rebind"
  | .notStarted =>
    "SQLAlchemy adapter not started. Call pagekeeper.adapters.sqlalchemy." ++
      "unit_of_work.startup() before opening a unit of work."

inductive UnitError where
  | misuse (m : Misuse)
  | store (e : StoreError)
  deriving DecidableEq, Repr

abbrev UnitStep := EStateM UnitError UnitOfWork

namespace UnitOfWork

def closed (s : Store) : UnitOfWork where
  committed := s

def opened (s : Store) (view : View) : UnitOfWork where
  committed := s
  session := some view
  repositories := true

/-- The unit of work with a session, if there is one. -/
def of (s : Store) : Option View → UnitOfWork
  | none => closed s
  | some view => opened s view

/-- What is committed and the session determine a unit of work. -/
theorem eq_of (u : UnitOfWork) : u = .of u.committed u.session := by
  rcases u with ⟨s, session | view, repositories, rfl⟩ <;> rfl

theorem eq_closed {u : UnitOfWork} (h : u.session = none) : u = .closed u.committed := by
  rw [u.eq_of, h]
  rfl

theorem eq_opened {u : UnitOfWork} {view : View} (h : u.session = some view) :
    u = .opened u.committed view := by
  rw [u.eq_of, h]
  rfl

@[simp] theorem closed_committed (s : Store) : (closed s).committed = s := rfl

@[simp] theorem closed_session (s : Store) : (closed s).session = none := rfl

@[simp] theorem opened_committed (s : Store) (view : View) :
    (opened s view).committed = s := rfl

@[simp] theorem opened_session (s : Store) (view : View) :
    (opened s view).session = some view := rfl

/-- Session and repositories are set together. -/
def enter : UnitStep Unit := fun u =>
  match u.session with
  | none => .ok () (.opened u.committed (.live u.committed))
  | some _ => .error (.misuse .alreadyOpen) u

/-- Use the repositories, which work on the session. -/
def use {α : Type} (x : Access α) : UnitStep α := fun u =>
  match u.repositories, u.session with
  | true, some view =>
    match x view with
    | .ok a view => .ok a (.opened u.committed view)
    | .error e view => .error (.store e) (.opened u.committed view)
  | _, _ => .error (.misuse .notOpen) u

def commit : UnitStep Unit := fun u =>
  match u.session with
  | none => .error (.misuse .notOpen) u
  | some (.live s) => .ok () (.opened s (.live s))
  | some .undone => .error (.store .undone) u

def rollback : UnitStep Unit := fun u =>
  match u.session with
  | none => .error (.misuse .notOpen) u
  | some _ => .ok () (.opened u.committed (.live u.committed))

/-- Session and repositories are given up together. -/
def exit : UnitStep Unit := fun u =>
  match u.session with
  | none => .error (.misuse .notOpen) u
  | some _ => .ok () (.closed u.committed)

end UnitOfWork

end GalleryCatalog
