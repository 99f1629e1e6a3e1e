
/-!
# The first of some values

Of the values in a list of which something is so, one stands first. It is the one that a search by
a test for it finds.
-/

set_option autoImplicit false

namespace GalleryCatalog

/-- The first of some values of which something is so. -/
def FirstOf {α : Type} (xs : List α) (p : α → Prop) (x : α) : Prop :=
  ∃ before after, xs = before ++ x :: after ∧ p x ∧ ∀ y ∈ before, ¬ p y

theorem firstOf_iff {α : Type} {xs : List α} {p : α → Prop} {q : α → Bool} {x : α}
    (h : ∀ y ∈ xs, q y = true ↔ p y) : xs.find? q = some x ↔ FirstOf xs p x := by
  rw [List.find?_eq_some_iff_append]
  constructor
  · rintro ⟨hx, before, after, rfl, hbefore⟩
    refine ⟨before, after, rfl, (h x (by simp)).mp hx, fun y hy hp => ?_⟩
    have hq := (h y (by simp [hy])).mpr hp
    simpa [hq] using hbefore y hy
  · rintro ⟨before, after, rfl, hx, hbefore⟩
    refine ⟨(h x (by simp)).mpr hx, before, after, rfl, fun y hy => ?_⟩
    rw [Bool.not_eq_true', ← Bool.not_eq_true, h y (by simp [hy])]
    exact hbefore y hy

/-- Where something is so, it is so of a first one. -/
theorem exists_firstOf {α : Type} {xs : List α} {p : α → Prop} :
    (∃ x, FirstOf xs p x) ↔ ∃ x ∈ xs, p x := by
  constructor
  · rintro ⟨x, before, after, rfl, hx, -⟩
    exact ⟨x, by simp, hx⟩
  · rintro ⟨y, hy, hp⟩
    classical
    have hsome : (xs.find? fun x => decide (p x)).isSome := by
      rw [List.find?_isSome]
      exact ⟨y, hy, by simpa using hp⟩
    obtain ⟨x, hx⟩ := Option.isSome_iff_exists.mp hsome
    exact ⟨x, (firstOf_iff fun _ _ => decide_eq_true_iff).mp hx⟩

end GalleryCatalog
