import GalleryCatalog.Text.Search

/-!
# Percent signs in options

An option may refer to another one by a name between a percent sign with an opening
bracket and a closing bracket with an `s`. A percent sign of its own is written
twice, so that escaped text refers to nothing. One that stands alone has no place in
an option.
-/

set_option autoImplicit false

namespace GalleryCatalog.Text

/-- Write every percent sign twice. -/
def escapePercent : List Char → List Char
  | [] => []
  | c :: cs => if c = '%' then '%' :: '%' :: escapePercent cs else c :: escapePercent cs

/-- The name in a reference, and what stands behind its closing bracket. -/
def readReference (cs : List Char) : Option (List Char × List Char) :=
  match cutAt ')' cs with
  | (name, some ('s' :: rest)) => if name = [] then none else some (name, rest)
  | _ => none

theorem cutAt_length {sep : Char} {cs before after : List Char}
    (h : cutAt sep cs = (before, some after)) : after.length < cs.length := by
  induction cs generalizing before with
  | nil => simp [cutAt] at h
  | cons c cs ih =>
    by_cases hc : c = sep
    · simp only [cutAt, hc, if_true, Prod.mk.injEq, Option.some.injEq] at h
      simp [h.2]
    · simp only [cutAt, hc, if_false, Prod.mk.injEq] at h
      have := ih (Prod.ext rfl h.2)
      simp only [List.length_cons]
      omega

theorem readReference_length {cs name rest : List Char}
    (h : readReference cs = some (name, rest)) : rest.length < cs.length := by
  unfold readReference at h
  split at h
  · rename_i before after hcut
    have hlt := cutAt_length hcut
    split at h
    · simp at h
    · simp only [Option.some.injEq, Prod.mk.injEq] at h
      simp only [h.2, List.length_cons] at hlt
      omega
  · simp at h

/-- Leave out percent signs that are written twice. -/
def dropEscaped : List Char → List Char
  | [] => []
  | '%' :: '%' :: rest => dropEscaped rest
  | c :: rest => c :: dropEscaped rest

/-- Leave out references. -/
def dropReferences (cs : List Char) : List Char :=
  match cs with
  | [] => []
  | '%' :: '(' :: rest =>
    match h : readReference rest with
    | none => '%' :: dropReferences ('(' :: rest)
    | some (_, later) =>
      have := readReference_length h
      dropReferences later
  | c :: rest => c :: dropReferences rest
termination_by cs.length
decreasing_by
  all_goals simp_all
  all_goals omega

/-- The place of the first percent sign that stands alone, once the others are left out. -/
def lonePercent? (cs : List Char) : Option Nat :=
  (dropReferences (dropEscaped cs)).findIdx? (· == '%')

/-- Read text with references, of which all must be known. -/
def interpolate (option : String → Option (List Char)) (cs : List Char) : Option (List Char) :=
  match cs with
  | [] => some []
  | '%' :: '%' :: rest => (interpolate option rest).map ('%' :: ·)
  | '%' :: '(' :: rest =>
    match h : readReference rest with
    | none => none
    | some (name, later) => do
      have := readReference_length h
      let value ← option (String.ofList name)
      let text ← interpolate option later
      return value ++ text
  | c :: rest => if c = '%' then none else (interpolate option rest).map (c :: ·)
termination_by cs.length
decreasing_by
  all_goals simp_all
  all_goals omega

end GalleryCatalog.Text
