import Mathlib.Data.List.Induction
import Mathlib.Data.List.Nodup
import GalleryCatalog.Proofs.Normalize

/-!
# First occurrences

Normalizing goes through the renamed items and takes in those that it has not taken in yet. So
every item is there once, at the place of its first occurrence, and a list that goes on adds to
what was taken in before only what is new.
-/

set_option autoImplicit false

namespace GalleryCatalog

/-- A list has the values of another one, each of them once, in the order in which they first
stand there. -/
structure FirstOccurrences {α : Type} [DecidableEq α] (xs ys : List α) : Prop where
  once : ys.Nodup
  same : ∀ x, x ∈ ys ↔ x ∈ xs
  order : ys.Pairwise fun x y => xs.idxOf x < xs.idxOf y

section FirstOccurrences

variable {α : Type} [DecidableEq α] {xs ys : List α}

/-- One more value goes to the end, unless it is there already. -/
theorem FirstOccurrences.concat (h : FirstOccurrences xs ys) (x : α) :
    FirstOccurrences (xs ++ [x]) (if x ∈ ys then ys else ys ++ [x]) := by
  have hplace : ∀ y ∈ ys, (xs ++ [x]).idxOf y = xs.idxOf y := fun y hy =>
    List.idxOf_append_of_mem ((h.same y).mp hy)
  have horder : ys.Pairwise fun y z => (xs ++ [x]).idxOf y < (xs ++ [x]).idxOf z := by
    refine h.order.imp_of_mem fun {y z} hy hz hlt => ?_
    rwa [hplace y hy, hplace z hz]
  split_ifs with hx
  · refine ⟨h.once, fun y => ?_, horder⟩
    rw [h.same, List.mem_append, List.mem_singleton, iff_self_or]
    rintro rfl
    exact (h.same y).mp hx
  · have hnew : x ∉ xs := mt (h.same x).mpr hx
    refine ⟨?_, fun y => by simp [h.same], ?_⟩
    · rw [← List.concat_eq_append, List.nodup_concat]
      exact ⟨hx, h.once⟩
    · refine List.pairwise_append.mpr ⟨horder, List.pairwise_singleton _ _, fun y hy z hz => ?_⟩
      obtain rfl := List.mem_singleton.mp hz
      rw [hplace y hy, List.idxOf_append_of_notMem hnew]
      exact Nat.lt_add_right _ (List.idxOf_lt_length_of_mem ((h.same y).mp hy))

theorem eraseDups_concat (xs : List α) (x : α) :
    (xs ++ [x]).eraseDups =
      if x ∈ xs.eraseDups then xs.eraseDups else xs.eraseDups ++ [x] := by
  rw [List.eraseDups_append]
  by_cases hx : x ∈ xs <;> simp [List.removeAll, List.eraseDups_cons, hx]

theorem eraseDups_firstOccurrences (xs : List α) : FirstOccurrences xs xs.eraseDups := by
  induction xs using List.reverseRecOn with
  | nil => exact ⟨by simp, by simp, by simp⟩
  | append_singleton xs x ih =>
    rw [eraseDups_concat]
    exact ih.concat x

end FirstOccurrences

/-- Items are renamed one by one, and of those that come to be the same only the first one stays.
Of what follows, a list takes in what it does not have yet. -/
structure Normalizes {α : Type} [DecidableEq α] (renamed : α → α) (normalize : List α → List α) :
    Prop where
  first : ∀ xs, FirstOccurrences (xs.map renamed) (normalize xs)
  append : ∀ xs ys,
    normalize (xs ++ ys) = normalize xs ++ (normalize ys).filter fun y => y ∉ normalize xs

theorem eraseDups_normalizes {α : Type} [DecidableEq α] (renamed : α → α) :
    Normalizes renamed fun xs => (xs.map renamed).eraseDups where
  first xs := eraseDups_firstOccurrences (xs.map renamed)
  append xs ys := by rw [List.map_append, eraseDups_append_filter]

/-- Normalized sources are the renamed ones, and normalized tags are the tags renamed after they
got a name space, at their first occurrences. Every normalized tag has a name space. -/
theorem normalized_at_first_occurrences :
    (∀ rules : List SourceRule, Normalizes (Source.mapped rules) (normalizeSources rules)) ∧
      (∀ rules : List TagRule,
        Normalizes (fun t => t.normal.mapped rules) (normalizeTags rules)) ∧
      ∀ (rules : List TagRule) (tags : List Tag), ∀ t ∈ normalizeTags rules tags, t.space ≠ "" :=
  ⟨fun _ => eraseDups_normalizes _, fun _ => eraseDups_normalizes _,
    fun _ _ _ => normalizeTags_space_ne⟩

/-- The second tag comes to be the first one, and the last one stands before its own repetition. -/
example : normalizeTags [⟨["b"], false, none, none, some "a"⟩]
    [⟨"", "a"⟩, ⟨"tag", "b"⟩, ⟨"x", "a"⟩, ⟨"", "b"⟩] = [⟨"tag", "a"⟩, ⟨"x", "a"⟩] := by
  decide +kernel

end GalleryCatalog
