import GalleryCatalog.Notice
import GalleryCatalog.PageFile

/-!
# Workspaces

What a call works on: a unit of work, the files, the keys that were reported, and
the notices given so far. A step that fails leaves the workspace as it has become
by then; only the unit of work can take back what was done in it. The database may
fail any use of an open unit of work, which then changes nothing.
-/

set_option autoImplicit false

namespace GalleryCatalog

/-- `troubles` are the errors with which the database answers, one after another, uses of
the repositories and commits. Where there is none it does what is asked. -/
structure Workspace where
  unit : UnitOfWork := {}
  tree : FileTree := {}
  reported : List String := []
  notices : List Notice := []
  troubles : List (Option StoreError) := []

abbrev Work := EStateM Failure Workspace

namespace Work

/-- A step of the unit of work. -/
def ofUnit {α : Type} (x : UnitStep α) : Work α := fun w =>
  match x w.unit with
  | .ok a u => .ok a { w with unit := u }
  | .error e u => .error (.unit e) { w with unit := u }

/-- A step that asks the database for something. A unit of work that is not open does not
come to that. -/
def ofDatabase {α : Type} (x : UnitStep α) : Work α := fun w =>
  match w.unit.session, w.troubles with
  | some _, some e :: troubles => .error (.unit (.store e)) { w with troubles }
  | some _, none :: troubles => ofUnit x { w with troubles }
  | _, _ => ofUnit x w

/-- Use the repositories of the unit of work. -/
def access {α : Type} (x : Access α) : Work α :=
  ofDatabase (UnitOfWork.use x)

def commit : Work Unit :=
  ofDatabase UnitOfWork.commit

def notify (n : Notice) : Work Unit :=
  modify fun w => { w with notices := w.notices ++ [n] }

/-- Change the files, which cannot fail. -/
def onFiles {α : Type} (f : FileTree → α × FileTree) : Work α :=
  modifyGet fun w =>
    let (a, t) := f w.tree
    (a, { w with tree := t })

end Work

end GalleryCatalog
