import Mathlib.Data.List.Forall2
import GalleryCatalog.Payload.Schema

/-!
# What checks decide

A check decides a form when it accepts exactly the values of that form, with what they stand
for, and refuses all others with at least one violation. Checks put together from parts decide
the form put together from the forms of the parts, and report the violations of all parts.
-/

set_option autoImplicit false

namespace GalleryCatalog.Payload.Check

variable {α β : Type}

/-- A check accepts what has the form, and refuses all else with some violation. -/
structure Decides (x : Check α) (form : α → Prop) : Prop where
  ok_iff : ∀ a, x.outcome = .ok a ↔ form a
  reports : x.outcome ≠ .error []

/-- The violations that a check reports, none if it accepts. -/
def violations (x : Check α) : List Violation :=
  match x.outcome with
  | .ok _ => []
  | .error vs => vs

theorem violations_of_error {x : Check α} {vs : List Violation} (h : x.outcome = .error vs) :
    x.violations = vs := by
  simp [violations, h]

/-! ## Forms -/

section Forms

variable {x : Check α} {y : Check β} {form form' : α → Prop} {other : β → Prop}

theorem Decides.congr (h : x.Decides form) (hform : ∀ a, form a ↔ form' a) : x.Decides form' :=
  ⟨fun a => (h.ok_iff a).trans (hform a), h.reports⟩

theorem Decides.accepts_iff (h : x.Decides form) : (∃ a, x.outcome = .ok a) ↔ ∃ a, form a :=
  exists_congr h.ok_iff

theorem Decides.violations_eq_nil (h : x.Decides form) : x.violations = [] ↔ ∃ a, form a := by
  rw [← h.accepts_iff]
  unfold violations
  cases hx : x.outcome with
  | ok a => simp
  | error vs =>
    have hsome : vs ≠ [] := fun hnil => h.reports (hnil ▸ hx)
    simp [hsome]

theorem accept_decides (a : α) : (accept a).Decides (a = ·) :=
  ⟨fun b => by simp [accept], by simp [accept]⟩

theorem refuse_decides (f : Fault) : (refuse f : Check α).Decides fun _ => False :=
  ⟨fun b => by simp [refuse], by simp [refuse]⟩

theorem Decides.map (h : x.Decides form) (f : α → β) :
    (x.map f).Decides fun b => ∃ a, form a ∧ f a = b := by
  simp only [← h.ok_iff]
  have hreports := h.reports
  constructor <;> cases hx : x.outcome <;> simp_all [Check.map, Except.map]

theorem Decides.both (hx : x.Decides form) (hy : y.Decides other) :
    (x.both y).Decides fun p => form p.1 ∧ other p.2 := by
  simp only [← hx.ok_iff, ← hy.ok_iff]
  have hleft := hx.reports
  have hright := hy.reports
  constructor <;> cases hxo : x.outcome <;> cases hyo : y.outcome <;>
    simp_all [Check.both, pair, Prod.ext_iff]

theorem Decides.within (h : x.Decides form) (step : Step) : (x.within step).Decides form := by
  have hreports := h.reports
  refine ⟨fun a => ?_, ?_⟩
  · rw [← h.ok_iff]
    cases hx : x.outcome <;> simp [Check.within, hx, Except.mapError]
  · cases hx : x.outcome <;> simp_all [Check.within, Except.mapError]

theorem carrying_outcome (model : Model) (keys : List String) (x : Check α) :
    (x.carrying model keys).outcome = x.outcome := by
  unfold carrying
  split
  · split <;> rfl
  · rfl

theorem Decides.carrying (h : x.Decides form) (model : Model) (keys : List String) :
    (x.carrying model keys).Decides form := by
  constructor <;> rw [carrying_outcome]
  · exact h.ok_iff
  · exact h.reports

/-- Checks of all items decide the forms of all items, one by one. -/
theorem all_decides {ι : Type} {check : ι → Check α} {form : ι → α → Prop}
    (h : ∀ i, (check i).Decides (form i)) (is : List ι) :
    (all (is.map check)).Decides (List.Forall₂ form is) := by
  induction is with
  | nil =>
    apply (accept_decides []).congr
    intro as
    rw [List.forall₂_nil_left_iff, eq_comm]
  | cons i is ih =>
    apply (((h i).both ih).map _).congr
    intro as
    cases as with
    | nil => simp
    | cons a as => simp [List.forall₂_cons]

end Forms

/-! ## Violations -/

section Violations

/-- Violations of a part, at its place within the whole. -/
def inside (step : Step) (vs : List Violation) : List Violation :=
  vs.map fun v => { v with place := step :: v.place }

@[simp] theorem violations_accept (a : α) : (accept a).violations = [] := rfl

@[simp] theorem violations_refuse (f : Fault) :
    (refuse f : Check α).violations = [⟨[], f⟩] := rfl

@[simp] theorem violations_map (f : α → β) (x : Check α) :
    (x.map f).violations = x.violations := by
  unfold violations Check.map
  cases x.outcome <;> rfl

@[simp] theorem violations_both (x : Check α) (y : Check β) :
    (x.both y).violations = x.violations ++ y.violations := by
  unfold violations both
  cases x.outcome <;> cases y.outcome <;> simp [pair]

@[simp] theorem violations_within (step : Step) (x : Check α) :
    (x.within step).violations = inside step x.violations := by
  unfold violations within
  cases x.outcome <;> rfl

@[simp] theorem violations_carrying (model : Model) (keys : List String) (x : Check α) :
    (x.carrying model keys).violations = x.violations := by
  unfold violations
  rw [carrying_outcome]

theorem violations_all (xs : List (Check α)) :
    (all xs).violations = xs.flatMap violations := by
  induction xs with
  | nil => rfl
  | cons x xs ih => simp [all, ih]

end Violations

end GalleryCatalog.Payload.Check
