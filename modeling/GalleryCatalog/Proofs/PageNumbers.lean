import GalleryCatalog.Proofs.PageNames

/-!
# Page numbers of paths

A path belongs to the page whose number stands before the first dot of its last name, with any
number of zeros in front and anything behind. This holds of a path that is read from text, where
the last name is what stands behind the last slash. No other path belongs to a page, and a number
with too many digits is the one thing that is refused.
-/

set_option autoImplicit false

namespace GalleryCatalog

open Text

/-! ## The last name of a path -/

/-- Where a text goes on after a slash, or begins, the last name of the path is what follows, if
that has no slash and stands for itself. -/
theorem Path.name_ofString {above name : List Char}
    (habove : above = [] ∨ ∃ cs, above = cs ++ ['/']) (hslash : '/' ∉ name)
    (hplain : String.ofList name ≠ "" ∧ String.ofList name ≠ ".") :
    (Path.ofString (String.ofList (above ++ name))).name = String.ofList name := by
  have hnames : ∃ before, namesBetween (above ++ name) = before ++ [String.ofList name] := by
    unfold namesBetween
    rcases habove with rfl | ⟨cs, rfl⟩
    · rw [List.nil_append, splitAll_of_not_mem hslash]
      exact ⟨[], by simp [hplain]⟩
    · rw [List.append_assoc, List.singleton_append, splitAll_concat hslash, List.map_append,
        List.filter_append]
      exact ⟨_, congrArg _ (by simp [hplain])⟩
  obtain ⟨before, hnames⟩ := hnames
  rw [Path.name, Path.ofString, String.toList_ofList, hnames]
  simp

namespace PageFile

/-! ## What stands before the first dot -/

/-- What stands before the first dot of a name, if it has one. -/
def head? (name : String) : Option (List Char) :=
  if '.' ∈ name.toList then some (name.toList.takeWhile fun c => c ≠ '.') else none

theorem head?_eq_some {name : String} {head : List Char} :
    head? name = some head ↔ ∃ rest, cutAt '.' name.toList = (head, some rest) := by
  unfold head?
  rw [← cutAt_fst]
  have hdot := cutAt_snd_isSome '.' name.toList
  rcases hcut : cutAt '.' name.toList with ⟨before, _ | rest⟩
  · rw [hcut] at hdot
    simp [← hdot]
  · rw [hcut] at hdot
    simp [← hdot]

theorem isNamedAfter_iff_head {n : Nat} {name : String} :
    IsNamedAfter n name ↔ ∃ zeros, head? name = some (zeroPadded zeros n) := by
  simp only [isNamedAfter_iff, head?_eq_some]

theorem not_digits_iff {head : List Char} :
    (¬ head.all isAsciiDigit = true) ↔ ∃ c ∈ head, c.isDigit = false := by
  rw [Bool.not_eq_true, List.all_eq_false]
  exact exists_congr fun c => and_congr_right fun _ => Iff.of_eq (Bool.not_eq_true _)

/-- Only what stands before the first dot is looked at. -/
theorem pageOfName_eq_head (name : String) : pageOfName name =
    match head? name with
    | none => .ok none
    | some head =>
      if head = [] ∨ ¬ head.all isAsciiDigit then .ok none
      else if digitLimit < head.length then .error ⟨head.length⟩
      else .ok (some (asciiNumber head)) := by
  unfold pageOfName
  rcases hcut : cutAt '.' name.toList with ⟨head, _ | rest⟩
  · have hnone : head? name = none :=
      Option.eq_none_iff_forall_ne_some.mpr fun head' h => by simp [head?_eq_some, hcut] at h
    rw [hnone]
  · rw [head?_eq_some.mpr ⟨rest, hcut⟩]

theorem pageOfName_eq_error {name : String} {e : TooManyDigits} :
    pageOfName name = .error e ↔ ∃ digits, head? name = some digits ∧
      (∀ c ∈ digits, c.isDigit = true) ∧ digitLimit < digits.length ∧
      e.count = digits.length := by
  rw [pageOfName_eq_head]
  cases head? name with
  | none => simp
  | some head =>
    simp only [Option.some.injEq, exists_eq_left']
    split_ifs with hother hlong
    · refine iff_of_false (by simp) fun ⟨hdigits, hlong, _⟩ => ?_
      rcases hother with rfl | hother
      · exact absurd hlong (Nat.not_lt_zero _)
      · obtain ⟨c, hc, hfalse⟩ := not_digits_iff.mp hother
        exact absurd (hdigits c hc) (by simp [hfalse])
    · have hdigits : ∀ c ∈ head, c.isDigit = true :=
        List.all_eq_true.mp (not_not.mp (not_or.mp hother).2)
      simp only [Except.error.injEq, hlong, true_and]
      exact ⟨fun h => ⟨hdigits, congrArg TooManyDigits.count h.symm⟩, fun h => by
        rw [← h.2]⟩
    · exact iff_of_false (by simp) fun h => hlong h.2.1

theorem pageOfName_eq_none {name : String} :
    pageOfName name = .ok none ↔ ∀ digits, head? name = some digits →
      digits = [] ∨ ∃ c ∈ digits, c.isDigit = false := by
  rw [pageOfName_eq_head]
  cases head? name with
  | none => simp
  | some head =>
    simp only [Option.some.injEq, forall_eq', ← not_digits_iff]
    split_ifs with hother hlong
    · exact iff_of_true rfl hother
    · exact iff_of_false (by simp) hother
    · exact iff_of_false (by simp) hother

theorem pageOfName_eq_page {n : Nat} {name : String} :
    pageOfName name = .ok (some n) ↔ ∃ zeros, head? name = some (zeroPadded zeros n) ∧
      (zeroPadded zeros n).length ≤ digitLimit := by
  rw [pageOfName_eq_some, isNamedAfter_iff_head, ← exists_and_right]
  refine exists_congr fun zeros => and_congr_right fun hhead => ?_
  obtain ⟨rest, hcut⟩ := head?_eq_some.mp hhead
  rw [hcut]

/-- A number with zeros before it and a dot behind is what stands before the first dot. -/
theorem head?_zeroPadded (zeros n : Nat) (rest : List Char) :
    head? (String.ofList (zeroPadded zeros n ++ '.' :: rest)) = some (zeroPadded zeros n) := by
  rw [head?_eq_some, String.toList_ofList]
  exact ⟨rest, cutAt_append (dot_not_mem_zeroPadded zeros n) rest⟩

theorem slash_not_mem_zeroPadded (zeros n : Nat) : '/' ∉ zeroPadded zeros n :=
  fun h => absurd (zeroPadded_digits zeros n '/' h) (by decide)

/-- The last name of a path from text, where it is a number, a dot and the rest. -/
theorem name_numbered {above rest : List Char} (zeros n : Nat)
    (habove : above = [] ∨ ∃ cs, above = cs ++ ['/']) (hslash : '/' ∉ rest) :
    (Path.ofString (String.ofList (above ++ (zeroPadded zeros n ++ '.' :: rest)))).name =
      String.ofList (zeroPadded zeros n ++ '.' :: rest) := by
  have hpos : 0 < (zeroPadded zeros n).length :=
    List.length_pos_iff.mpr (zeroPadded_ne_nil zeros n)
  refine Path.name_ofString habove ?_ ⟨fun h => ?_, fun h => ?_⟩
  · simp [slash_not_mem_zeroPadded, hslash]
  · have hchars := congrArg String.toList h
    simp at hchars
  · have hchars := congrArg List.length (congrArg String.toList h)
    simp only [String.toList_ofList, List.length_append, List.length_cons] at hchars
    have hone : ".".toList.length = 1 := rfl
    omega

/-- The page of a path is read off what stands before the first dot of its last name. Digits make
it the page with that number, in whichever way it is padded, unless there are too many of them.
Without a dot, without digits or with anything else among them there is no page. A number written
with zeros before it, a dot and any rest without a slash is such a name, wherever the text of the
path puts it. -/
theorem pageOf_decides (p : Path) :
    (∀ n, pageOf p = .ok (some n) ↔ ∃ zeros, head? p.name = some (zeroPadded zeros n) ∧
        (zeroPadded zeros n).length ≤ 4300) ∧
      (∀ e, pageOf p = .error e ↔ ∃ digits, head? p.name = some digits ∧
        (∀ c ∈ digits, c.isDigit = true) ∧ 4300 < digits.length ∧ e.count = digits.length) ∧
      (pageOf p = .ok none ↔ ∀ digits, head? p.name = some digits →
        digits = [] ∨ ∃ c ∈ digits, c.isDigit = false) ∧
      (∀ zeros n, zeroPadded zeros n ≠ [] ∧ ∀ c ∈ zeroPadded zeros n, c.isDigit = true) ∧
      ∀ (above rest : List Char) (zeros n : Nat),
        (above = [] ∨ ∃ cs, above = cs ++ ['/']) → '/' ∉ rest →
        (zeroPadded zeros n).length ≤ 4300 →
        pageOf (Path.ofString (String.ofList (above ++ (zeroPadded zeros n ++ '.' :: rest)))) =
          .ok (some n) := by
  refine ⟨fun n => pageOfName_eq_page, fun e => pageOfName_eq_error, pageOfName_eq_none,
    fun zeros n => ⟨zeroPadded_ne_nil zeros n, zeroPadded_digits zeros n⟩, ?_⟩
  intro above rest zeros n habove hslash hlength
  rw [pageOf, name_numbered zeros n habove hslash]
  exact pageOfName_eq_page.mpr ⟨zeros, head?_zeroPadded zeros n rest, hlength⟩

/-- A number of three digits within two directories, with further dots behind it. -/
theorem pageOf_padded :
    pageOf (Path.ofString "ab/thumbs/007.jpg.webp") = .ok (some 7) := by
  obtain ⟨-, -, -, -, hreads⟩ := pageOf_decides (Path.ofString "")
  exact hreads "ab/thumbs/".toList "jpg.webp".toList 2 7 (.inr ⟨"ab/thumbs".toList, by decide⟩)
    (by decide) (by decide)

end PageFile

end GalleryCatalog
