import Mathlib.Data.List.Induction
import Mathlib.Data.String.Basic
import GalleryCatalog.PageFile

/-!
# Names of page files

A number is read back from its decimal digits with any number of zeros before them, and every
text of digits is the digits of the number that is read, after some zeros. So a file belongs
to the one page whose number stands before the first dot of its name in that form.
-/

set_option autoImplicit false

namespace GalleryCatalog

namespace Text

/-- The decimal digits of a number after some zeros. -/
def zeroPadded (zeros n : Nat) : List Char :=
  List.replicate zeros '0' ++ Nat.toDigits 10 n

theorem asciiNumber_eq (ds : List Char) : asciiNumber ds = Nat.ofDigitChars 10 ds 0 := by
  simp only [asciiNumber, Nat.ofDigitChars_eq_foldl, digitValue, Nat.mul_comm]

theorem asciiNumber_concat (ds : List Char) (c : Char) :
    asciiNumber (ds ++ [c]) = 10 * asciiNumber ds + digitValue c := by
  simp [asciiNumber, Nat.mul_comm]

theorem asciiNumber_zeroPadded (zeros n : Nat) : asciiNumber (zeroPadded zeros n) = n := by
  rw [asciiNumber_eq, zeroPadded, Nat.ofDigitChars_append, Nat.ofDigitChars_replicate_zero,
    Nat.mul_zero, Nat.ofDigitChars_ten_toDigits]

theorem zeroPadded_digits (zeros n : Nat) : ∀ c ∈ zeroPadded zeros n, isAsciiDigit c = true := by
  intro c hc
  rcases List.mem_append.mp hc with hzero | hdigit
  · rw [List.eq_of_mem_replicate hzero]
    rfl
  · exact Nat.isDigit_of_mem_toDigits (by decide) (by decide) hdigit

theorem zeroPadded_ne_nil (zeros n : Nat) : zeroPadded zeros n ≠ [] :=
  fun h => Nat.toDigits_ne_nil (List.append_eq_nil_iff.mp h).2

theorem isAsciiDigit_iff {c : Char} :
    isAsciiDigit c = true ↔ 48 ≤ c.toNat ∧ c.toNat ≤ 57 := by
  simp [isAsciiDigit, Char.le_def, UInt32.le_iff_toNat_le]

theorem digitValue_lt {c : Char} (h : isAsciiDigit c = true) : digitValue c < 10 := by
  obtain ⟨hlow, hhigh⟩ := isAsciiDigit_iff.mp h
  have hzero : '0'.toNat = 48 := rfl
  unfold digitValue
  omega

theorem toDigits_digitValue {c : Char} (h : isAsciiDigit c = true) :
    Nat.toDigits 10 (digitValue c) = [c] := by
  rw [Nat.toDigits_of_lt_base (digitValue_lt h)]
  congr 1
  apply Char.toNat_inj.mp
  rw [Nat.toNat_digitChar_of_lt_ten (digitValue_lt h)]
  exact Nat.add_sub_cancel' (isAsciiDigit_iff.mp h).1

/-- Another digit at the end multiplies by ten, unless there were only zeros so far. -/
theorem zeroPadded_concat (zeros n : Nat) {c : Char} (h : isAsciiDigit c = true) :
    ∃ zeros', zeroPadded zeros n ++ [c] = zeroPadded zeros' (10 * n + digitValue c) := by
  rcases Nat.eq_zero_or_pos n with rfl | hn
  · refine ⟨zeros + 1, ?_⟩
    simp [zeroPadded, toDigits_digitValue h, List.replicate_succ']
  · refine ⟨zeros, ?_⟩
    rw [zeroPadded, zeroPadded, List.append_assoc, ← toDigits_digitValue h,
      Nat.toDigits_append_toDigits (by decide) hn (digitValue_lt h)]

theorem eq_zeroPadded {ds : List Char} (hne : ds ≠ [])
    (hds : ∀ c ∈ ds, isAsciiDigit c = true) : ∃ zeros, ds = zeroPadded zeros (asciiNumber ds) := by
  induction ds using List.reverseRecOn with
  | nil => exact absurd rfl hne
  | append_singleton ds c ih =>
    have hc : isAsciiDigit c = true := hds c (by simp)
    rw [asciiNumber_concat]
    rcases eq_or_ne ds [] with rfl | hne'
    · exact ⟨0, by simp [zeroPadded, asciiNumber, toDigits_digitValue hc]⟩
    · obtain ⟨zeros, hzeros⟩ := ih hne' fun c' hc' => hds c' (by simp [hc'])
      obtain ⟨zeros', hconcat⟩ := zeroPadded_concat zeros (asciiNumber ds) hc
      exact ⟨zeros', by rw [← hconcat, ← hzeros]⟩

theorem length_le_utf8Len (cs : List Char) : cs.length ≤ String.utf8Len cs := by
  induction cs with
  | nil => exact Nat.zero_le _
  | cons c cs ih =>
    have hc := c.utf8Size_pos
    simp only [String.utf8Len_cons, List.length_cons]
    omega

end Text

namespace PageFile

open Text

/-- The number of the page stands before the first dot of the name, after some zeros. -/
def IsNamedAfter (n : Nat) (name : String) : Prop :=
  ∃ zeros rest, name.toList = zeroPadded zeros n ++ '.' :: rest

theorem dot_not_mem_zeroPadded (zeros n : Nat) : '.' ∉ zeroPadded zeros n :=
  fun h => absurd (zeroPadded_digits zeros n '.' h) (by decide)

theorem isNamedAfter_iff {n : Nat} {name : String} : IsNamedAfter n name ↔
    ∃ zeros rest, cutAt '.' name.toList = (zeroPadded zeros n, some rest) := by
  unfold IsNamedAfter
  simp only [cutAt_eq_some, dot_not_mem_zeroPadded, not_false_eq_true, and_true]

theorem IsNamedAfter.unique {n n' : Nat} {name : String} (h : IsNamedAfter n name)
    (h' : IsNamedAfter n' name) : n = n' := by
  obtain ⟨zeros, rest, hcut⟩ := isNamedAfter_iff.mp h
  obtain ⟨zeros', rest', hcut'⟩ := isNamedAfter_iff.mp h'
  have hsame : zeroPadded zeros n = zeroPadded zeros' n' :=
    congrArg Prod.fst (hcut.symm.trans hcut')
  rw [← asciiNumber_zeroPadded zeros n, hsame, asciiNumber_zeroPadded]

/-- A name belongs to the page that it is named after, unless it has too many digits. -/
theorem pageOfName_eq_some {n : Nat} {name : String} :
    pageOfName name = .ok (some n) ↔
      IsNamedAfter n name ∧ (cutAt '.' name.toList).1.length ≤ digitLimit := by
  rw [isNamedAfter_iff]
  unfold pageOfName
  rcases hcut : cutAt '.' name.toList with ⟨head, _ | rest⟩
  · simp
  · simp only [Prod.mk.injEq, Option.some.injEq]
    split_ifs with hdigits hlong
    · refine iff_of_false (by simp) ?_
      rintro ⟨⟨zeros, -, rfl, -⟩, -⟩
      rcases hdigits with hnil | hother
      · exact zeroPadded_ne_nil zeros n hnil
      · exact hother (List.all_eq_true.mpr (zeroPadded_digits zeros n))
    · exact iff_of_false (by simp) fun h => absurd h.2 (by omega)
    · obtain ⟨hne, hall⟩ := not_or.mp hdigits
      constructor
      · intro h
        obtain rfl : asciiNumber head = n := by simpa using h
        obtain ⟨zeros, hzeros⟩ := eq_zeroPadded hne (List.all_eq_true.mp (not_not.mp hall))
        exact ⟨⟨zeros, rest, hzeros, rfl⟩, by omega⟩
      · rintro ⟨⟨zeros, -, rfl, -⟩, -⟩
        rw [asciiNumber_zeroPadded]

/-- No name that a file can have has too many digits. -/
theorem pageOfName_of_fits {n : Nat} {name : String}
    (h : name.utf8ByteSize ≤ FileTree.nameLimit) :
    pageOfName name = .ok (some n) ↔ IsNamedAfter n name := by
  rw [pageOfName_eq_some, and_iff_left_iff_imp]
  intro hname
  obtain ⟨zeros, rest, hcut⟩ := isNamedAfter_iff.mp hname
  have hbefore : (zeroPadded zeros n).length ≤ name.toList.length := by
    rw [(cutAt_eq_some.mp hcut).1, List.length_append]
    exact Nat.le_add_right _ _
  have hbytes : name.toList.length ≤ name.utf8ByteSize := by
    rw [← String.ofList_toList (s := name), String.utf8ByteSize_ofList, String.toList_ofList]
    exact length_le_utf8Len name.toList
  rw [hcut]
  exact Nat.le_trans (Nat.le_trans hbefore hbytes) (Nat.le_trans h (by decide))

end PageFile

end GalleryCatalog
