/-!
# Searching text

Whether a pattern occurs in a text, and the two sides of the first separator.
-/

set_option autoImplicit false

namespace GalleryCatalog.Text

def occursIn (pattern : List Char) : List Char → Bool
  | [] => pattern.isEmpty
  | c :: cs => pattern.isPrefixOf (c :: cs) || occursIn pattern cs

/-- What stands before the first separator, and what stands after it if there is one. -/
def cutAt (sep : Char) : List Char → List Char × Option (List Char)
  | [] => ([], none)
  | c :: cs =>
    if c = sep then ([], some cs)
    else
      let (before, after) := cutAt sep cs
      (c :: before, after)

/-- The parts between separators; one more than there are separators. -/
def splitAll (sep : Char) : List Char → List (List Char)
  | [] => [[]]
  | c :: cs =>
    if c = sep then [] :: splitAll sep cs
    else
      match splitAll sep cs with
      | [] => [[c]]
      | part :: parts => (c :: part) :: parts

/-- A pattern occurs in a text where it stands in a row within it. -/
theorem occursIn_iff {pattern cs : List Char} : occursIn pattern cs = true ↔ pattern <:+: cs := by
  induction cs with
  | nil => rw [occursIn, List.isEmpty_iff, List.infix_nil]
  | cons c cs ih =>
    rw [occursIn, Bool.or_eq_true, List.isPrefixOf_iff_prefix, ih, List.infix_cons_iff]

theorem cutAt_append {sep : Char} {cs : List Char} (h : sep ∉ cs) (rest : List Char) :
    cutAt sep (cs ++ sep :: rest) = (cs, some rest) := by
  induction cs with
  | nil => simp [cutAt]
  | cons c cs ih =>
    simp only [List.mem_cons, not_or] at h
    simp [cutAt, Ne.symm h.1, ih h.2]

theorem cutAt_of_not_mem {sep : Char} {cs : List Char} (h : sep ∉ cs) :
    cutAt sep cs = (cs, none) := by
  induction cs with
  | nil => rfl
  | cons c cs ih =>
    simp only [List.mem_cons, not_or] at h
    simp [cutAt, Ne.symm h.1, ih h.2]

theorem cutAt_eq_some {sep : Char} {cs before after : List Char} :
    cutAt sep cs = (before, some after) ↔ cs = before ++ sep :: after ∧ sep ∉ before := by
  refine ⟨fun h => ?_, fun ⟨hcs, hbefore⟩ => hcs ▸ cutAt_append hbefore after⟩
  induction cs generalizing before with
  | nil => simp [cutAt] at h
  | cons c cs ih =>
    by_cases hc : c = sep
    · simp only [cutAt, hc, if_true, Prod.mk.injEq, Option.some.injEq] at h
      obtain ⟨rfl, rfl⟩ := h
      exact ⟨by rw [hc, List.nil_append], List.not_mem_nil⟩
    · simp only [cutAt, hc, if_false, Prod.mk.injEq] at h
      obtain ⟨rfl, hafter⟩ := h
      have hcut : cutAt sep cs = ((cutAt sep cs).1, some after) := by rw [← hafter]
      obtain ⟨hcs, hnot⟩ := ih hcut
      exact ⟨by rw [List.cons_append, ← hcs], by simp [Ne.symm hc, hnot]⟩

theorem cutAt_fst (sep : Char) (cs : List Char) :
    (cutAt sep cs).1 = cs.takeWhile fun c => c ≠ sep := by
  induction cs with
  | nil => rfl
  | cons c cs ih => by_cases hc : c = sep <;> simp [cutAt, hc, ih]

theorem cutAt_snd_isSome (sep : Char) (cs : List Char) :
    (cutAt sep cs).2.isSome = true ↔ sep ∈ cs := by
  induction cs with
  | nil => simp [cutAt]
  | cons c cs ih =>
    by_cases hc : c = sep
    · simp [cutAt, hc]
    · simp [cutAt, hc, ih, Ne.symm hc]

theorem splitAll_of_not_mem {sep : Char} {cs : List Char} (h : sep ∉ cs) :
    splitAll sep cs = [cs] := by
  induction cs with
  | nil => rfl
  | cons c cs ih =>
    simp only [List.mem_cons, not_or] at h
    simp [splitAll, Ne.symm h.1, ih h.2]

theorem splitAll_ne_nil (sep : Char) (cs : List Char) : splitAll sep cs ≠ [] := by
  cases cs with
  | nil => simp [splitAll]
  | cons c cs =>
    unfold splitAll
    split
    · simp
    · split <;> simp

/-- What stands behind the last separator is the last part. -/
theorem splitAll_concat {sep : Char} {part : List Char} (h : sep ∉ part) (cs : List Char) :
    splitAll sep (cs ++ sep :: part) = splitAll sep cs ++ [part] := by
  induction cs with
  | nil => simp [splitAll, splitAll_of_not_mem h]
  | cons c cs ih =>
    by_cases hc : c = sep
    · simp [splitAll, hc, ih]
    · simp only [List.cons_append, splitAll, hc, if_false, ih]
      cases hparts : splitAll sep cs with
      | nil => exact absurd hparts (splitAll_ne_nil sep cs)
      | cons first parts => rfl

end GalleryCatalog.Text
