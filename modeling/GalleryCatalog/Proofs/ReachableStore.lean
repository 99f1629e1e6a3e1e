import GalleryCatalog.Proofs.Call

/-!
# Reachable stores

Calls follow one another, and before each of them files and variables may have been
changed from outside. The database may give errors of its own during any of them. A call
that returns keeps a sound store sound, and one that fails keeps the store, so every store
that calls lead to from one without rows is sound.
-/

set_option autoImplicit false

namespace GalleryCatalog

/-- A job that returns leaves a store of which the same holds. -/
def Job.Preserve (P : Store → Prop) : Prop :=
  ∀ (job : Job) (w u : Workspace) (s : Store) (r : Returned),
    P s → job.run (w.closedOn s) = .ok r u → P u.unit.committed

theorem Job.preserve_sound : Preserve Store.Sound :=
  fun _ _ _ _ _ hs h => run_sound hs h

/-- A call, the terms of it, and the variables, files and errors of the database that it
finds. -/
structure Event where
  host : Host := {}
  tree : FileTree := {}
  troubles : List (Option StoreError) := []
  terms : Terms
  call : Call

namespace Event

/-- The application as a call finds it. -/
def found (p : Application) (v : Event) : Application :=
  { p with host := v.host, tree := v.tree, troubles := v.troubles }

/-- The application after a call, whether or not it has failed. -/
def happen (p : Application) (v : Event) : Application :=
  Work.left (v.call.perform v.terms) (found p v)

def run (events : List Event) (p : Application) : Application :=
  events.foldl happen p

variable {p : Application} {e : Engine}

section Keeps

variable {P : Store → Prop} (hjob : Job.Preserve P)
include hjob

/-- What jobs preserve, a call preserves, whether it returns or fails. -/
theorem happen_keeps (hp : p.Serves e) (hs : P (p.storeOf e)) (v : Event) :
    (happen p v).Serves e ∧ P ((happen p v).storeOf e) := by
  have hfound : (found p v).Serves e := hp
  unfold happen
  cases hcall : v.call.perform v.terms (found p v) with
  | ok r q =>
    rw [Work.left_of_ok hcall]
    obtain ⟨job, p', w, -, hreads, hrun, rfl⟩ := Call.perform_eq_ok hfound hcall
    refine ⟨(hreads.serves hfound).after e w, ?_⟩
    rw [Application.storeOf_after, if_pos rfl]
    exact hjob job _ w _ r hs hrun
  | error f q =>
    rw [Work.left_of_error hcall]
    rcases Call.perform_eq_error hfound hcall with hreads | ⟨job, p', w, -, hreads, hrun, rfl⟩
    · have hstore : q.storeOf e = p.storeOf e := hreads.storeOf e
      exact ⟨hreads.serves hfound, hstore ▸ hs⟩
    · refine ⟨(hreads.serves hfound).after e w, ?_⟩
      rw [Application.storeOf_after, if_pos rfl, Job.run_error (hreads.workspace_unit e) hrun]
      exact hs

theorem run_keeps (hp : p.Serves e) (hs : P (p.storeOf e)) (events : List Event) :
    (run events p).Serves e ∧ P ((run events p).storeOf e) := by
  induction events generalizing p with
  | nil => exact ⟨hp, hs⟩
  | cons v events ih =>
    obtain ⟨hserves, hkept⟩ := happen_keeps hjob hp hs v
    exact ih hserves hkept

end Keeps

theorem run_serves_sound (hp : p.Serves e) (hs : (p.storeOf e).Sound) (events : List Event) :
    (run events p).Serves e ∧ ((run events p).storeOf e).Sound :=
  run_keeps Job.preserve_sound hp hs events

end Event

/-- Calls lead to the store from one without rows. -/
def Store.Reachable (s : Store) : Prop :=
  ∃ (p : Application) (e : Engine) (events : List Event),
    p.Serves e ∧ p.storeOf e = {} ∧ (Event.run events p).storeOf e = s

/-- What holds of the store without rows, and jobs preserve, holds of every store that calls
lead to. -/
theorem Store.Reachable.keeps {P : Store → Prop} (hempty : P {}) (hjob : Job.Preserve P)
    {s : Store} (h : s.Reachable) : P s := by
  obtain ⟨p, e, events, hp, hstart, rfl⟩ := h
  exact (Event.run_keeps hjob hp (hstart ▸ hempty) events).2

theorem Store.Reachable.sound {s : Store} (h : s.Reachable) : s.Sound :=
  h.keeps Store.Sound.empty Job.preserve_sound

/-- After any calls, from a store without rows on, the store is sound: keys are distinct, all
rows refer to rows that are there, and no name or name space is empty. -/
theorem Event.run_from_empty_sound {p : Application} {e : Engine} (hp : p.Serves e)
    (hempty : p.storeOf e = {}) (events : List Event) : ((run events p).storeOf e).Sound :=
  (run_serves_sound hp (hempty ▸ Store.Sound.empty) events).2

/-! ## Two archives -/

/-- An application on a database in memory without rows. -/
def Application.blank : Application where
  bound := some (.memory 0)

/-- The settings are given, and nothing is asked of the environment. -/
def Terms.given : Terms where
  now := ⟨⟨2024, 1, 1⟩, ⟨0, 0, 0, 0⟩, none⟩
  settings := some { images := ⟨.slash, ["images"]⟩ }

def Event.register : Event where
  terms := .given
  call := .createArchive "a1" "First"

def Event.registerSecond : Event where
  terms := .given
  call := .createArchive "b2" "Second"

def Store.withFirst : Store where
  archives := [⟨1, "a1", "First", ⟨⟨2024, 1, 1⟩, ⟨0, 0, 0, 0⟩, none⟩⟩]

theorem Store.withFirst_reachable : Store.withFirst.Reachable :=
  ⟨Application.blank, .memory 0, [Event.register], ⟨rfl, rfl⟩, rfl, by decide +kernel⟩

/-- Two archives that share a tag. -/
def Store.filled : Store where
  archives := [⟨1, "a1", "First", ⟨⟨2024, 1, 1⟩, ⟨0, 0, 0, 0⟩, none⟩⟩,
    ⟨2, "b2", "Second", ⟨⟨2024, 1, 1⟩, ⟨0, 0, 0, 0⟩, none⟩⟩]
  sources := [⟨1, 1, "site", none⟩, ⟨2, 1, "old", some "old/1"⟩, ⟨3, 2, "site", none⟩]
  images := [⟨1, 1, 1, "1.png", some 640, none⟩, ⟨2, 1, 2, "2.png", none, none⟩,
    ⟨3, 2, 1, "1.png", none, none⟩]
  tags := [⟨1, ⟨"tag", "red"⟩⟩, ⟨2, ⟨"tag", "blue"⟩⟩]
  links := [⟨1, 1⟩, ⟨1, 2⟩, ⟨2, 1⟩]

/-- The archives are registered, and get their sources, images and tags. -/
def Event.fill : List Event :=
  [register, registerSecond,
    { terms := .given
      call := .reconcile 1 false false
        { sources := some [⟨some "site", none⟩, ⟨some "old", some "old/1"⟩]
          images := some [⟨"1.png", 1, some 640, none⟩, ⟨"2.png", 2, none, none⟩]
          tags := some [⟨"", "red"⟩, ⟨"", "blue"⟩] } },
    { terms := .given
      call := .reconcile 2 false false
        { sources := some [⟨some "site", none⟩]
          images := some [⟨"1.png", 1, none, none⟩]
          tags := some [⟨"", "red"⟩] } }]

/-- Calls that fail: a hash is taken, a width fits no column, a file is missing, and the database
cannot save a new tag. -/
def Event.failing : List Event :=
  [register,
    { terms := .given
      call := .syncImages 1 [⟨"3.png", 3, some 0x8000000000000000, none⟩] },
    { terms := .given
      call := .importFile 1 ⟨.slash, ["missing.json"]⟩ false false },
    { troubles := List.replicate 5 none ++ [some (.failed "disk I/O error")]
      terms := .given
      call := .syncTags 2 [⟨"", "red"⟩, ⟨"", "green"⟩] }]

theorem Event.fill_store :
    (run (fill ++ failing) .blank).storeOf (.memory 0) = .filled := by
  decide +kernel

theorem Store.filled_reachable : Store.filled.Reachable :=
  ⟨Application.blank, .memory 0, Event.fill ++ Event.failing, ⟨rfl, rfl⟩, rfl, Event.fill_store⟩

theorem Event.filled_sound :
    (∀ v ∈ failing, Work.returns (v.call.perform v.terms) (found (run fill .blank) v) = false) ∧
      (run (fill ++ failing) .blank).storeOf (.memory 0) = .filled ∧ Store.filled.Sound := by
  refine ⟨by decide +kernel, fill_store, ?_⟩
  have hsound := run_from_empty_sound (p := .blank) (e := .memory 0) ⟨rfl, rfl⟩ rfl
    (fill ++ failing)
  rwa [fill_store] at hsound

end GalleryCatalog
