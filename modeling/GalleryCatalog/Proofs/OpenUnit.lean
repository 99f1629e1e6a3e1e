import Mathlib.Order.Defs.Unbundled
import GalleryCatalog.Service

/-!
# Work in an open unit of work

A service opens its unit of work, works on a live view of the store, and commits.
A step on a live view is a step of its statement, and whatever the work does to the
view reaches the store only through the commit at its end. What every step keeps, a whole
service keeps. Errors that the database gives by itself can only stop work: what returns in
spite of them returns the same without them.
-/

set_option autoImplicit false

namespace GalleryCatalog

/-- The workspace when the database gives no errors by itself. -/
def Workspace.calm (w : Workspace) : Workspace :=
  { w with troubles := [] }

/-- The workspace when its unit of work has been entered. -/
def Workspace.entered (w : Workspace) : Workspace :=
  { w with unit := .opened w.unit.committed (.live w.unit.committed) }

/-- The workspace when its unit of work has been left. -/
def Workspace.exited (w : Workspace) : Workspace :=
  { w with unit := .closed w.unit.committed }

/-- The calm workspace with its unit of work open, and seeing a store. -/
def Workspace.on (w : Workspace) (s : Store) : Workspace :=
  { w with unit := .opened w.unit.committed (.live s), troubles := [] }

/-- The calm workspace with its unit of work closed, and a store committed. -/
def Workspace.closedOn (w : Workspace) (s : Store) : Workspace :=
  { w with unit := .closed s, troubles := [] }

def Workspace.told (w : Workspace) (n : Notice) : Workspace :=
  { w with notices := w.notices ++ [n] }

def Workspace.withTree (w : Workspace) (t : FileTree) : Workspace :=
  { w with tree := t }

/-- The failure of a call in which a statement was refused. -/
def refused (e : StoreError) : Failure :=
  .unit (.store e)

/-- An integer that no column holds. -/
def outOfRange : Failure :=
  refused .integerOutOfRange

/-- Why a statement that binds some number of values is refused, if it is. The integers among
them are looked at when there are not too many. -/
def refusal? (values : Nat) (ns : List Int) : Option StoreError :=
  if ¬ values ≤ parameterLimit then some .tooManyParameters
  else if ¬ ns.all fits = true then some .integerOutOfRange
  else none

theorem refusal?_eq_none {values : Nat} {ns : List Int} :
    refusal? values ns = none ↔ values ≤ parameterLimit ∧ ns.all fits = true := by
  by_cases hvalues : values ≤ parameterLimit <;> by_cases hfits : ns.all fits = true <;>
    simp [refusal?, hvalues, hfits]

/-- Without integers there may only be too many values. -/
theorem refusal?_nil {values : Nat} {e : StoreError} (h : refusal? values [] = some e) :
    e = .tooManyParameters := by
  by_cases hvalues : values ≤ parameterLimit
  · simp [refusal?, hvalues] at h
  · simpa [refusal?, hvalues] using h.symm

theorem refusal?_cons {n : Int} (h : fits n = true) (values : Nat) (ns : List Int) :
    refusal? values (n :: ns) = refusal? values ns := by
  simp [refusal?, h]

namespace Workspace

theorem closedOn_of_closed {w : Workspace} {s : Store} (h : w.unit = .closed s) :
    w.closedOn s = w.calm := by
  rw [closedOn, calm, ← h]

theorem calm_of_calm {w : Workspace} (h : w.troubles = []) : w.calm = w := by
  rw [calm, ← h]

/-- A closed unit of work is entered on what was committed. -/
theorem entered_of_closed {w : Workspace} {s : Store} (h : w.unit = .closed s) :
    w.entered.calm = w.on s := by
  rw [entered, calm, on, h]
  rfl

theorem on_of_session {w : Workspace} {s : Store} (h : w.unit.session = some (.live s)) :
    w.on s = w.calm := by
  rw [on, calm, ← UnitOfWork.eq_opened h]

/-- An open unit of work sees one store. -/
theorem on_store {w v : Workspace} {s t : Store} (h : w.on s = v.on t) : s = t := by
  have hsession := congrArg (fun w : Workspace => w.unit.session) h
  simpa [Workspace.on] using hsession

@[simp] theorem calm_unit (w : Workspace) : w.calm.unit = w.unit := rfl

@[simp] theorem calm_tree (w : Workspace) : w.calm.tree = w.tree := rfl

@[simp] theorem on_session (w : Workspace) (s : Store) :
    (w.on s).unit.session = some (.live s) := rfl

@[simp] theorem on_tree (w : Workspace) (s : Store) : (w.on s).tree = w.tree := rfl

@[simp] theorem on_withTree (w : Workspace) (s : Store) (t : FileTree) :
    (w.on s).withTree t = (w.withTree t).on s := rfl

@[simp] theorem closedOn_tree (w : Workspace) (s : Store) : (w.closedOn s).tree = w.tree := rfl

@[simp] theorem told_unit (w : Workspace) (n : Notice) : (w.told n).unit = w.unit := rfl

@[simp] theorem told_tree (w : Workspace) (n : Notice) : (w.told n).tree = w.tree := rfl

end Workspace

namespace Work

section Steps

variable {ε σ α β : Type} {x : EStateM ε σ α} {f : α → EStateM ε σ β}

theorem bind_of_ok {w v : σ} {a : α} (h : x w = .ok a v) : (x >>= f) w = f a v := by
  simp [bind, EStateM.bind, h]

theorem bind_of_error {w v : σ} {e : ε} (h : x w = .error e v) :
    (x >>= f) w = .error e v := by
  simp [bind, EStateM.bind, h]

theorem bind_eq_ok {w u : σ} {b : β} :
    (x >>= f) w = .ok b u ↔ ∃ a v, x w = .ok a v ∧ f a v = .ok b u := by
  cases h : x w with
  | ok a v => simp [bind_of_ok h, and_assoc]
  | error e v => simp [bind_of_error h]

theorem bind_eq_error {w u : σ} {e : ε} :
    (x >>= f) w = .error e u ↔
      x w = .error e u ∨ ∃ a v, x w = .ok a v ∧ f a v = .error e u := by
  cases h : x w with
  | ok a v => simp [bind_of_ok h, and_assoc]
  | error d v => simp [bind_of_error h]

theorem map_eq_ok {k : α → β} {w v : σ} {b : β} :
    (k <$> x) w = .ok b v ↔ ∃ a, x w = .ok a v ∧ k a = b := by
  cases h : x w with
  | ok a v => simp [Functor.map, EStateM.map, h, and_assoc, and_comm]
  | error e v => simp [Functor.map, EStateM.map, h]

theorem map_eq_error {k : α → β} {w v : σ} {e : ε} :
    (k <$> x) w = .error e v ↔ x w = .error e v := by
  cases h : x w <;> simp [Functor.map, EStateM.map, h]

theorem pure_eq_ok {w v : σ} {a b : α} :
    (pure a : EStateM ε σ α) w = .ok b v ↔ a = b ∧ w = v := by
  simp [pure, EStateM.pure]

@[simp] theorem throw_apply (e : ε) (w : σ) : (throw e : EStateM ε σ α) w = .error e w := rfl

@[simp] theorem get_bind_apply (f : σ → EStateM ε σ β) (w : σ) : (get >>= f) w = f w w := rfl

@[simp] theorem modify_apply (k : σ → σ) (w : σ) :
    (modify k : EStateM ε σ PUnit) w = .ok () (k w) := rfl

/-- The last step is done when the work returns, and when it fails. -/
theorem finally_of_ok {last : EStateM ε σ Unit} {w v : σ} {a : α} (h : x w = .ok a v) :
    (tryFinally x last) w = (last >>= fun _ => pure a) v := by
  simp only [tryFinally, MonadFinally.tryFinally', Functor.map, EStateM.map, bind,
    EStateM.bind, h]
  cases last v <;> rfl

theorem finally_of_error {last : EStateM ε σ Unit} {w v : σ} {e : ε} (h : x w = .error e v) :
    (tryFinally x last) w = (last >>= fun _ => throw e) v := by
  simp only [tryFinally, MonadFinally.tryFinally', Functor.map, EStateM.map, bind,
    EStateM.bind, h]
  cases last v <;> rfl

end Steps

variable {α : Type}

/-- Every statement first looks at its integers. -/
theorem requires_ok {ns : List Int} (h : ns.all fits = true) (f : Unit → Statement α)
    (s : Store) : (requireFits ns >>= f) s = f () s :=
  bind_of_ok (requireFits_of_all (List.all_eq_true.mp h) s)

theorem requires_error {ns : List Int} (h : ¬ ns.all fits = true) (f : Unit → Statement α)
    (s : Store) : (requireFits ns >>= f) s = .error .integerOutOfRange s :=
  bind_of_error (by rw [requireFits, if_neg h]; rfl)

/-- A statement is refused for its number of values before it is for one of them. -/
theorem requires_both (values : Nat) (ns : List Int) (f : Unit → Statement α) (s : Store) :
    (requireParameters values >>= fun _ => requireFits ns >>= f) s =
      match refusal? values ns with
      | none => f () s
      | some e => .error e s := by
  unfold refusal?
  by_cases hvalues : values ≤ parameterLimit
  · have hcount : requireParameters values s = .ok () s := by
      rw [requireParameters, if_pos hvalues]
      rfl
    rw [bind_of_ok hcount]
    by_cases hfits : ns.all fits = true
    · simp [requires_ok hfits, hvalues, hfits]
    · simp [requires_error hfits, hvalues, hfits]
  · have hcount : requireParameters values s = .error .tooManyParameters s := by
      rw [requireParameters, if_neg hvalues]
      rfl
    rw [bind_of_error hcount]
    simp [hvalues]

/-- Without integers among its values a statement is refused for their number alone. -/
theorem requires_values (values : Nat) (f : Unit → Statement α) (s : Store) :
    (requireParameters values >>= f) s =
      match refusal? values [] with
      | none => f () s
      | some e => .error e s :=
  requires_both values [] f s

theorem requires_eq_ok {ns : List Int} {f : Unit → Statement α} {s s' : Store} {a : α}
    (h : (requireFits ns >>= f) s = .ok a s') : f () s = .ok a s' := by
  by_cases hfits : ns.all fits = true
  · rwa [requires_ok hfits] at h
  · simp [requires_error hfits] at h

/-- The database answers with an error of its own, and then nothing else changes, or the step is
done. -/
theorem ofDatabase_does (x : UnitStep α) (w : Workspace) :
    ∃ troubles, (w.troubles = [] → troubles = []) ∧
      (ofDatabase x w = ofUnit x { w with troubles } ∨
        w.troubles ≠ [] ∧ ∃ e, ofDatabase x w = .error (.unit (.store e)) { w with troubles }) := by
  unfold ofDatabase
  split
  next e troubles hs ht => exact ⟨troubles, by simp [ht], .inr ⟨by simp [ht], e, rfl⟩⟩
  next troubles hs ht => exact ⟨troubles, by simp [ht], .inl rfl⟩
  next => exact ⟨w.troubles, id, .inl rfl⟩

theorem ofDatabase_calm (x : UnitStep α) {w : Workspace} (h : w.troubles = []) :
    ofDatabase x w = ofUnit x w := by
  obtain ⟨troubles, hcalm, hdone | ⟨htroubled, -⟩⟩ := ofDatabase_does x w
  · rw [hdone, hcalm h, ← h]
  · exact absurd h htroubled

/-- What the repositories do on a live view they do in a unit of work that is open on it. -/
theorem access_live {x : Access α} {s s' : Store} {a : α} (h : x (.live s) = .ok a (.live s'))
    (w : Workspace) : access x (w.on s) = .ok a (w.on s') := by
  rw [access, ofDatabase_calm _ rfl]
  simp [ofUnit, UnitOfWork.use, Workspace.on, UnitOfWork.opened, h]

theorem access_live_error {x : Access α} {s s' : Store} {e : StoreError}
    (h : x (.live s) = .error e (.live s')) (w : Workspace) :
    access x (w.on s) = .error (.unit (.store e)) (w.on s') := by
  rw [access, ofDatabase_calm _ rfl]
  simp [ofUnit, UnitOfWork.use, Workspace.on, UnitOfWork.opened, h]

theorem access_ok {x : Statement α} {s s' : Store} {a : α} (h : x s = .ok a s')
    (w : Workspace) : access x.onView (w.on s) = .ok a (w.on s') :=
  access_live (by simp [Statement.onView, h]) w

theorem access_error {x : Statement α} {s s' : Store} {e : StoreError}
    (h : x s = .error e s') (w : Workspace) :
    access x.onView (w.on s) = .error (.unit (.store e)) (w.on s') :=
  access_live_error (by simp [Statement.onView, h]) w

theorem access_eq_ok {x : Statement α} {s : Store} {a : α} {w v : Workspace} :
    access x.onView (w.on s) = .ok a v ↔ ∃ s', x s = .ok a s' ∧ w.on s' = v := by
  cases h : x s with
  | ok b s' => simp [access_ok h, and_assoc]
  | error e s' => simp [access_error h]

theorem ofUnit_eq_error {x : UnitStep α} {w v : Workspace} {f : Failure}
    (h : ofUnit x w = .error f v) : ∃ e, f = .unit e := by
  unfold ofUnit at h
  split at h
  · cases h
  · exact ⟨_, (EStateM.Result.error.inj h).1.symm⟩

/-- A use of the repositories fails as the unit of work does. -/
theorem access_eq_error {x : Access α} {w v : Workspace} {f : Failure}
    (h : access x w = .error f v) : ∃ e, f = .unit e := by
  obtain ⟨troubles, -, hdone | ⟨-, e, herror⟩⟩ := ofDatabase_does (UnitOfWork.use x) w
  · exact ofUnit_eq_error (hdone.symm.trans h)
  · exact ⟨_, (EStateM.Result.error.inj (h.symm.trans herror)).1⟩

/-- An empty batch runs no statement. -/
theorem access_pure (a : α) (s : Store) (w : Workspace) :
    access (pure a) (w.on s) = .ok a (w.on s) := rfl

theorem notify_on (n : Notice) (s : Store) (w : Workspace) :
    notify n (w.on s) = .ok () ((w.told n).on s) := rfl

/-- What no step changes, a fold does not change. -/
theorem foldl_view {σ β γ : Type} {f : σ → β → σ} (view : σ → γ)
    (h : ∀ s b, view (f s b) = view s) (xs : List β) (s : σ) :
    view (xs.foldl f s) = view s := by
  induction xs generalizing s with
  | nil => rfl
  | cons b xs ih => exact (ih (f s b)).trans (h s b)

/-- A loop whose steps cannot fail folds what one step does. -/
theorem forM_on {step : α → Work Unit} {f : Store → α → Store}
    (told : Workspace → α → Workspace) (xs : List α)
    (h : ∀ a ∈ xs, ∀ w s, step a (w.on s) = .ok () ((told w a).on (f s a)))
    (w : Workspace) (s : Store) :
    xs.forM step (w.on s) = .ok () ((xs.foldl told w).on (xs.foldl f s)) := by
  induction xs generalizing w s with
  | nil => rfl
  | cons a xs ih =>
    have hstep : (a :: xs).forM step (w.on s) = xs.forM step ((told w a).on (f s a)) :=
      bind_of_ok (h a (by simp) w s)
    rw [hstep]
    exact ih (fun b hb => h b (by simp [hb])) _ _

section Keeps

variable {ε σ α β : Type}

/-- The state that a step leaves, whether or not it fails. -/
def left (x : EStateM ε σ α) (w : σ) : σ :=
  match x w with
  | .ok _ v => v
  | .error _ v => v

theorem left_of_ok {x : EStateM ε σ α} {w v : σ} {a : α} (h : x w = .ok a v) :
    left x w = v := by
  simp [left, h]

theorem left_of_error {x : EStateM ε σ α} {w v : σ} {e : ε} (h : x w = .error e v) :
    left x w = v := by
  simp [left, h]

theorem left_bind {x : EStateM ε σ α} {f : α → EStateM ε σ β} {w v : σ} {a : α}
    (h : x w = .ok a v) : left (x >>= f) w = left (f a) v := by
  simp only [left, bind_of_ok h]

theorem left_bind_pure (x : EStateM ε σ α) (f : α → β) (w : σ) :
    left (x >>= fun a => pure (f a)) w = left x w := by
  cases h : x w with
  | ok a v =>
    rw [left_bind h, left_of_ok h]
    rfl
  | error e v => rw [left_of_error h, left_of_error (bind_of_error h)]

/-- Whether a step returns. -/
def returns (x : EStateM ε σ α) (w : σ) : Bool :=
  match x w with
  | .ok _ _ => true
  | .error _ _ => false

theorem eq_ok_of_returns {x : EStateM ε σ α} {w : σ} (h : returns x w = true) :
    ∃ a v, x w = .ok a v := by
  unfold returns at h
  split at h
  next a v hx => exact ⟨a, v, hx⟩
  next => cases h

theorem eq_error_of_returns {x : EStateM ε σ α} {w : σ} (h : returns x w = false) :
    ∃ e v, x w = .error e v := by
  unfold returns at h
  split at h
  next => cases h
  next e v hx => exact ⟨e, v, hx⟩

/-- What a step fails with. -/
def failure? (x : EStateM ε σ α) (w : σ) : Option ε :=
  match x w with
  | .ok _ _ => none
  | .error e _ => some e

theorem eq_error_of_failure {x : EStateM ε σ α} {w : σ} {e : ε} (h : failure? x w = some e) :
    ∃ v, x w = .error e v := by
  unfold failure? at h
  split at h
  next => cases h
  next d v hx => exact ⟨v, by rw [hx, Option.some.inj h]⟩

/-- A step relates what it starts from to what it leaves. -/
def Keeps (R : σ → σ → Prop) (x : EStateM ε σ α) : Prop :=
  ∀ w, R w (left x w)

variable {R : σ → σ → Prop} [Std.Refl R] [IsTrans σ R]

omit [IsTrans σ R] in
theorem pure_keeps (a : α) : Keeps R (pure a : EStateM ε σ α) :=
  fun w => refl_of R w

omit [IsTrans σ R] in
theorem get_keeps : Keeps R (get : EStateM ε σ σ) :=
  fun w => refl_of R w

omit [IsTrans σ R] in
theorem throw_keeps (e : ε) : Keeps R (throw e : EStateM ε σ α) :=
  fun w => refl_of R w

omit [Std.Refl R] in
theorem bind_keeps {x : EStateM ε σ α} {f : α → EStateM ε σ β} (hx : Keeps R x)
    (hf : ∀ a, Keeps R (f a)) : Keeps R (x >>= f) := by
  intro w
  have hw := hx w
  cases h : x w with
  | error e v =>
    rw [left_of_error h] at hw
    rwa [left_of_error (bind_of_error h)]
  | ok a v =>
    rw [left_of_ok h] at hw
    rw [left_bind h]
    exact trans_of R hw (hf a v)

end Keeps

/-- What is so of work when it is so of its steps. Steps on files are left out. -/
structure Compositional (Q : ∀ {α : Type}, Work α → Prop) : Prop where
  pure : ∀ {α : Type} (a : α), Q (Pure.pure a)
  bind : ∀ {α β : Type} {x : Work α} {f : α → Work β}, Q x → (∀ a, Q (f a)) → Q (x >>= f)
  access : ∀ {α : Type} (x : Access α), Q (Work.access x)
  notify : ∀ n, Q (Work.notify n)
  noRow : ∀ {α : Type} (archive : Int) (t : Tag), Q (throw (.tagWithoutRow archive t) : Work α)

namespace Compositional

variable {Q : ∀ {α : Type}, Work α → Prop} (hQ : Compositional Q)
include hQ

theorem forM {step : α → Work Unit} (h : ∀ a, Q (step a)) (xs : List α) : Q (xs.forM step) := by
  induction xs with
  | nil => exact hQ.pure ()
  | cons a xs ih => exact hQ.bind (h a) fun _ => ih

theorem optionally {β : Type} {pass : α → Work β} (h : ∀ a, Q (pass a)) (o : Option α) :
    Q (Reconcile.optionally pass o) := by
  cases o with
  | none => exact hQ.pure none
  | some a => exact hQ.bind (h a) fun b => hQ.pure (some b)

end Compositional

theorem keeps_compositional {R : Workspace → Workspace → Prop} [Std.Refl R] [IsTrans Workspace R]
    (haccess : ∀ {α : Type} (x : Access α), Keeps R (access x))
    (hnotify : ∀ n, Keeps R (notify n)) : Compositional fun x => Keeps R x where
  pure := pure_keeps
  bind := bind_keeps
  access := haccess
  notify := hnotify
  noRow _ _ := throw_keeps _

/-- Nothing is committed, and an open unit of work stays open. -/
def Within (w v : Workspace) : Prop :=
  w.unit.session ≠ none → v.unit.committed = w.unit.committed ∧ v.unit.session ≠ none ∧
    (w.troubles = [] → v.troubles = [])

instance : Std.Refl Within where
  refl _ h := ⟨rfl, h, id⟩

instance : IsTrans Workspace Within where
  trans _ _ _ h₁ h₂ h := by
    obtain ⟨hcommitted₁, hopen₁, hcalm₁⟩ := h₁ h
    obtain ⟨hcommitted₂, hopen₂, hcalm₂⟩ := h₂ hopen₁
    exact ⟨hcommitted₂.trans hcommitted₁, hopen₂, hcalm₂ ∘ hcalm₁⟩

theorem access_within (x : Access α) : Keeps Within (access x) := by
  intro w hopen
  obtain ⟨view, hview⟩ := Option.ne_none_iff_exists'.mp hopen
  obtain ⟨troubles, hcalm, hdone | ⟨-, e, herror⟩⟩ := ofDatabase_does (UnitOfWork.use x) w
  · have hunit := UnitOfWork.eq_opened hview
    cases hx : x view with
    | ok a view' =>
      have hrun : access x w =
          .ok a { w with unit := .opened w.unit.committed view', troubles } := by
        rw [access, hdone, hunit]
        simp [ofUnit, UnitOfWork.use, UnitOfWork.opened, hx]
      rw [left_of_ok hrun]
      exact ⟨rfl, Option.some_ne_none _, hcalm⟩
    | error e view' =>
      have hrun : access x w =
          .error (.unit (.store e))
            { w with unit := .opened w.unit.committed view', troubles } := by
        rw [access, hdone, hunit]
        simp [ofUnit, UnitOfWork.use, UnitOfWork.opened, hx]
      rw [left_of_error hrun]
      exact ⟨rfl, Option.some_ne_none _, hcalm⟩
  · rw [access, left_of_error herror]
    exact ⟨rfl, hopen, hcalm⟩

theorem notify_within (n : Notice) : Keeps Within (notify n) :=
  fun _ h => ⟨rfl, h, id⟩

theorem within_compositional : Compositional fun x => Keeps Within x :=
  keeps_compositional access_within notify_within

theorem onFiles_within (f : FileTree → α × FileTree) : Keeps Within (onFiles f) :=
  fun _ h => ⟨rfl, h, id⟩

/-! ## Errors of the database -/

/-- What returns in spite of errors of the database returns the same without them. -/
def Unimpeded (x : Work α) : Prop :=
  ∀ w v a, x w = .ok a v → x w.calm = .ok a v.calm

/-- So does what returns in a unit of work that sees a store. -/
theorem Unimpeded.on {x : Work α} (hx : Unimpeded x) {w v : Workspace} {s : Store} {a : α}
    (hw : w.unit.session = some (.live s)) (h : x w = .ok a v) : x (w.on s) = .ok a v.calm := by
  rw [Workspace.on_of_session hw]
  exact hx w v a h

theorem ofUnit_unimpeded (x : UnitStep α) : Unimpeded (ofUnit x) := by
  intro w v a h
  have hunit : x w.calm.unit = x w.unit := rfl
  unfold ofUnit at h ⊢
  rw [hunit]
  cases hx : x w.unit with
  | ok b u =>
    rw [hx] at h
    obtain ⟨rfl, rfl⟩ := EStateM.Result.ok.inj h
    rfl
  | error e u =>
    rw [hx] at h
    cases h

theorem ofDatabase_unimpeded (x : UnitStep α) : Unimpeded (ofDatabase x) := by
  intro w v a h
  rw [ofDatabase_calm x rfl]
  obtain ⟨troubles, -, hdone | ⟨-, e, herror⟩⟩ := ofDatabase_does x w
  · exact ofUnit_unimpeded x { w with troubles } v a (hdone.symm.trans h)
  · rw [herror] at h
    cases h

theorem bind_unimpeded {β : Type} {x : Work α} {f : α → Work β} (hx : Unimpeded x)
    (hf : ∀ a, Unimpeded (f a)) : Unimpeded (x >>= f) := by
  intro w v b h
  obtain ⟨a, u, hxw, hfu⟩ := bind_eq_ok.mp h
  rw [bind_of_ok (hx w u a hxw)]
  exact hf a u v b hfu

theorem throw_unimpeded (e : Failure) : Unimpeded (throw e : Work α) := by
  intro w v a h
  cases h

theorem pure_unimpeded (a : α) : Unimpeded (pure a) := by
  intro w v b h
  obtain ⟨rfl, rfl⟩ := pure_eq_ok.mp h
  rfl

theorem notify_unimpeded (n : Notice) : Unimpeded (notify n) := by
  intro w v a h
  obtain ⟨rfl, rfl⟩ := EStateM.Result.ok.inj h
  rfl

theorem onFiles_unimpeded (f : FileTree → α × FileTree) : Unimpeded (onFiles f) := by
  intro w v a h
  obtain ⟨rfl, rfl⟩ := EStateM.Result.ok.inj h
  rfl

theorem finally_unimpeded {x : Work α} {last : Work Unit} (hx : Unimpeded x)
    (hlast : Unimpeded last) : Unimpeded (tryFinally x last) := by
  intro w v a h
  cases hxw : x w with
  | ok b u =>
    rw [finally_of_ok hxw] at h
    rw [finally_of_ok (hx w u b hxw)]
    exact bind_unimpeded hlast (fun _ => pure_unimpeded b) u v a h
  | error e u =>
    rw [finally_of_error hxw] at h
    obtain ⟨_, u', -, hthrow⟩ := bind_eq_ok.mp h
    cases hthrow

theorem unimpeded_compositional : Compositional fun x => Unimpeded x where
  pure := pure_unimpeded
  bind := bind_unimpeded
  access _ := ofDatabase_unimpeded _
  notify := notify_unimpeded
  noRow _ _ := throw_unimpeded _

/-- A commit saves what an open unit of work sees, or fails and changes nothing of it. -/
theorem commit_open {w : Workspace} {view : View} (h : w.unit.session = some view) :
    ∃ troubles, (∃ s, view = .live s ∧
        commit w = .ok () { w with unit := .opened s (.live s), troubles }) ∨
      ∃ e, (w.troubles = [] → view = .undone ∧ e = .undone) ∧
        commit w = .error (.unit (.store e)) { w with troubles } := by
  have hunit := UnitOfWork.eq_opened h
  obtain ⟨troubles, -, hdone | ⟨htroubled, e, herror⟩⟩ := ofDatabase_does UnitOfWork.commit w
  · refine ⟨troubles, ?_⟩
    rw [commit, hdone]
    cases view with
    | live s => exact .inl ⟨s, rfl, by simp [ofUnit, UnitOfWork.commit, h]⟩
    | undone => exact .inr ⟨.undone, fun _ => ⟨rfl, rfl⟩, by simp [ofUnit, UnitOfWork.commit, h]⟩
  · exact ⟨troubles, .inr ⟨e, fun hcalm => absurd hcalm htroubled, herror⟩⟩

end Work

namespace Service

variable {α : Type}

section Unit

variable {work : Work α} {w v : Workspace}

theorem enter_closed (hw : w.unit.session = none) :
    Work.ofUnit UnitOfWork.enter w = .ok () w.entered := by
  simp [Work.ofUnit, UnitOfWork.enter, hw, Workspace.entered]

theorem exit_open (hv : v.unit.session ≠ none) :
    Work.ofUnit UnitOfWork.exit v = .ok () v.exited := by
  obtain ⟨view, hview⟩ := Option.ne_none_iff_exists'.mp hv
  simp [Work.ofUnit, UnitOfWork.exit, hview, Workspace.exited]

/-- Work that fails is left without a commit. -/
theorem inUnit_of_error {e : Failure} (hw : w.unit.session = none)
    (h : work w.entered = .error e v) (hv : v.unit.session ≠ none) :
    inUnit work w = .error e v.exited := by
  unfold inUnit
  rw [Work.bind_of_ok (enter_closed hw), Work.finally_of_error (Work.bind_of_error h),
    Work.bind_of_ok (exit_open hv)]
  rfl

/-- So is work that cannot be committed. -/
theorem inUnit_of_unsaved {e : Failure} {a : α} {u : Workspace} (hw : w.unit.session = none)
    (h : work w.entered = .ok a v) (hcommit : Work.commit v = .error e u)
    (hu : u.unit.session ≠ none) : inUnit work w = .error e u.exited := by
  have hblock : (work >>= fun a => Work.commit >>= fun _ => pure a) w.entered = .error e u :=
    (Work.bind_of_ok h).trans (Work.bind_of_error hcommit)
  unfold inUnit
  rw [Work.bind_of_ok (enter_closed hw), Work.finally_of_error hblock,
    Work.bind_of_ok (exit_open hu)]
  rfl

theorem inUnit_of_saved {a : α} {u : Workspace} (hw : w.unit.session = none)
    (h : work w.entered = .ok a v) (hcommit : Work.commit v = .ok () u)
    (hu : u.unit.session ≠ none) : inUnit work w = .ok a u.exited := by
  have hblock : (work >>= fun a => Work.commit >>= fun _ => pure a) w.entered = .ok a u :=
    (Work.bind_of_ok h).trans (Work.bind_of_ok hcommit)
  unfold inUnit
  rw [Work.bind_of_ok (enter_closed hw), Work.finally_of_ok hblock, Work.bind_of_ok (exit_open hu)]
  rfl

theorem inUnit_unimpeded (h : Work.Unimpeded work) : Work.Unimpeded (inUnit work) := by
  apply Work.bind_unimpeded (Work.ofUnit_unimpeded _)
  intro _
  apply Work.finally_unimpeded _ (Work.ofUnit_unimpeded _)
  apply Work.bind_unimpeded h
  intro a
  apply Work.bind_unimpeded (Work.ofDatabase_unimpeded _)
  intro _
  exact Work.pure_unimpeded a

/-- Whatever errors the database gives, a unit of work that fails leaves the store as it was and
the files as its work has left them. -/
theorem inUnit_fails_anyhow (hwork : Work.Keeps Work.Within work) {u : Workspace} {s : Store}
    {e : Failure} (hw : w.unit = .closed s) (h : inUnit work w = .error e u) :
    u.unit = .closed s ∧ u.tree = (Work.left work w.entered).tree := by
  have hclosed : w.unit.session = none := by rw [hw]; rfl
  obtain ⟨hcommitted, hopen, -⟩ := hwork w.entered (Option.some_ne_none _)
  have hs : w.entered.unit.committed = s := by rw [Workspace.entered, hw]; rfl
  rw [hs] at hcommitted
  obtain ⟨view, hview⟩ := Option.ne_none_iff_exists'.mp hopen
  cases hrun : work w.entered with
  | error d v =>
    rw [Work.left_of_error hrun] at hcommitted hopen ⊢
    rw [inUnit_of_error hclosed hrun hopen] at h
    obtain ⟨-, rfl⟩ := EStateM.Result.error.inj h
    exact ⟨by rw [Workspace.exited, hcommitted], rfl⟩
  | ok a v =>
    rw [Work.left_of_ok hrun] at hcommitted hopen hview ⊢
    obtain ⟨troubles, ⟨s', -, hsaved⟩ | ⟨d, -, hunsaved⟩⟩ := Work.commit_open hview
    · rw [inUnit_of_saved hclosed hrun hsaved (Option.some_ne_none _)] at h
      cases h
    · rw [inUnit_of_unsaved hclosed hrun hunsaved hopen] at h
      obtain ⟨-, rfl⟩ := EStateM.Result.error.inj h
      exact ⟨by rw [Workspace.exited, hcommitted], rfl⟩

end Unit

/-! ## Calm units of work -/

/-- Work that leaves a live view commits what it sees. -/
theorem inUnit_ok {work : Work α} {w v : Workspace} {s s' : Store} {a : α}
    (h : work ((w.closedOn s).on s) = .ok a (v.on s')) :
    inUnit work (w.closedOn s) = .ok a (v.closedOn s') :=
  inUnit_of_saved (u := (v.closedOn s').on s') rfl h rfl (Option.some_ne_none _)

/-- Work that fails commits nothing. -/
theorem inUnit_error {work : Work α} {w v : Workspace} {s : Store} {view : View} {e : Failure}
    (h : work ((w.closedOn s).on s) = .error e v) (hv : v.unit.session = some view)
    (hcalm : v.troubles = []) :
    inUnit work (w.closedOn s) = .error e (v.closedOn v.unit.committed) := by
  rw [inUnit_of_error rfl h (by simp [hv]), Workspace.exited, Workspace.closedOn, hcalm]

/-- Work on a view that was undone has nothing to commit. -/
theorem inUnit_undone {work : Work α} {w v : Workspace} {s : Store} {a : α}
    (h : work ((w.closedOn s).on s) = .ok a v) (hv : v.unit.session = some .undone)
    (hcalm : v.troubles = []) :
    inUnit work (w.closedOn s) =
      .error (.unit (.store .undone)) (v.closedOn v.unit.committed) := by
  have hcommit : Work.commit v = .error (.unit (.store .undone)) v := by
    rw [Work.commit, Work.ofDatabase_calm _ hcalm]
    simp [Work.ofUnit, UnitOfWork.commit, hv]
  rw [inUnit_of_unsaved rfl h hcommit (by simp [hv]), Workspace.exited, Workspace.closedOn, hcalm]

/-- A unit of work commits the view that its work leaves, or nothing. -/
theorem inUnit_eq_ok {work : Work α} (hwork : Work.Keeps Work.Within work) {w u : Workspace}
    {s : Store} {a : α} (h : inUnit work (w.closedOn s) = .ok a u) :
    ∃ (v : Workspace) (s' : Store),
      work ((w.closedOn s).on s) = .ok a (v.on s') ∧ u = v.closedOn s' := by
  obtain ⟨-, hopen, hcalm⟩ := hwork ((w.closedOn s).on s) (Option.some_ne_none _)
  obtain ⟨view, hview⟩ := Option.ne_none_iff_exists'.mp hopen
  replace hcalm := hcalm rfl
  cases hrun : work ((w.closedOn s).on s) with
  | error e v =>
    rw [Work.left_of_error hrun] at hview hcalm
    simp [inUnit_error hrun hview hcalm] at h
  | ok b v =>
    rw [Work.left_of_ok hrun] at hview hcalm
    cases view with
    | undone => simp [inUnit_undone hrun hview hcalm] at h
    | live s' =>
      have hv : v.on s' = v := (Workspace.on_of_session hview).trans (Workspace.calm_of_calm hcalm)
      rw [← hv] at hrun
      rw [inUnit_ok hrun, EStateM.Result.ok.injEq] at h
      exact ⟨v, s', by rw [h.1, hv], h.2.symm⟩

/-- A unit of work fails as its work does, or for want of a view to commit, and leaves the store as
it was. -/
theorem inUnit_fails {work : Work α} (hwork : Work.Keeps Work.Within work) {w u : Workspace}
    {s : Store} {e : Failure} (h : inUnit work (w.closedOn s) = .error e u) :
    ((∃ v, work ((w.closedOn s).on s) = .error e v) ∨ e = .unit (.store .undone)) ∧
      u = (Work.left work ((w.closedOn s).on s)).closedOn s := by
  obtain ⟨hcommitted, hopen, hcalm⟩ := hwork ((w.closedOn s).on s) (Option.some_ne_none _)
  obtain ⟨view, hview⟩ := Option.ne_none_iff_exists'.mp hopen
  replace hcalm := hcalm rfl
  cases hrun : work ((w.closedOn s).on s) with
  | error d v =>
    rw [Work.left_of_error hrun] at hcommitted hview hcalm ⊢
    rw [inUnit_error hrun hview hcalm, hcommitted] at h
    obtain ⟨rfl, rfl⟩ := EStateM.Result.error.inj h
    exact ⟨.inl ⟨v, rfl⟩, rfl⟩
  | ok b v =>
    rw [Work.left_of_ok hrun] at hcommitted hview hcalm ⊢
    cases view with
    | undone =>
      rw [inUnit_undone hrun hview hcalm, hcommitted] at h
      obtain ⟨rfl, rfl⟩ := EStateM.Result.error.inj h
      exact ⟨.inr rfl, rfl⟩
    | live s' =>
      have hv : v.on s' = v := (Workspace.on_of_session hview).trans (Workspace.calm_of_calm hcalm)
      rw [← hv] at hrun
      simp [inUnit_ok hrun] at h

theorem inUnit_eq_error {work : Work α} (hwork : Work.Keeps Work.Within work)
    {w u : Workspace} {s : Store} {e : Failure}
    (h : inUnit work (w.closedOn s) = .error e u) :
    u = (Work.left work ((w.closedOn s).on s)).closedOn s :=
  (inUnit_fails hwork h).2

end Service

end GalleryCatalog
