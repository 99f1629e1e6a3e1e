import Mathlib.Tactic.SplitIfs
import GalleryCatalog.Calendar.Date

/-!
# Day numbers

The number of a day is the number of days that have gone by since the first day of year 1, and
every number is that of exactly one day. The calendar is given by what day comes next: another
day of the month, the first of the next month, or the first of the next year. It does not end
with the year 9999.
-/

set_option autoImplicit false

namespace GalleryCatalog.Calendar

/-! ## Months and years -/

theorem daysInMonth_pos (y m : Nat) : 0 < daysInMonth y m := by
  unfold daysInMonth
  split_ifs <;> decide

theorem daysInMonths_mono (y : Nat) {m m' : Nat} (h : m ≤ m') :
    daysInMonths y m ≤ daysInMonths y m' := by
  induction h with
  | refl => exact Nat.le_refl _
  | step _ ih => exact Nat.le_trans ih (Nat.le_add_right _ _)

theorem daysInMonths_twelve (y : Nat) : daysInMonths y 12 = if isLeap y then 366 else 365 := by
  cases h : isLeap y <;> simp [daysInMonths, daysInMonth, h]

theorem isLeap_iff {y : Nat} : isLeap y = true ↔ 4 ∣ y ∧ (¬ 100 ∣ y ∨ 400 ∣ y) := by
  simp [isLeap, Nat.dvd_iff_mod_eq_zero]

/-- The closed form counts the days of one year after the other. -/
theorem daysBeforeYear_succ {y : Nat} (hy : 1 ≤ y) :
    daysBeforeYear (y + 1) = daysBeforeYear y + daysInMonths y 12 := by
  obtain ⟨k, rfl⟩ : ∃ k, y = k + 1 := ⟨y - 1, by omega⟩
  have hcenturies : k / 100 ≤ k / 4 := Nat.div_le_div_left (by decide) (by decide)
  have h100 : 100 ∣ k + 1 → 4 ∣ k + 1 := Nat.dvd_trans (by decide)
  have h400 : 400 ∣ k + 1 → 100 ∣ k + 1 := Nat.dvd_trans (by decide)
  simp only [daysBeforeYear, daysInMonths_twelve, isLeap_iff, Nat.add_sub_cancel, Nat.succ_div]
  generalize k / 4 = fours at *
  generalize k / 100 = hundreds at *
  generalize k / 400 = fourHundreds
  by_cases by4 : 4 ∣ k + 1
  · by_cases by100 : 100 ∣ k + 1
    · by_cases by400 : 400 ∣ k + 1
      · simp only [by4, by100, by400, if_true, not_true, or_true, and_true]
        omega
      · simp only [by4, by100, by400, if_true, if_false, not_true, or_false, and_false]
        omega
    · have by400 : ¬ 400 ∣ k + 1 := mt h400 by100
      simp only [by4, by100, by400, if_true, if_false, not_false_eq_true, true_or, and_true]
      omega
  · have by100 : ¬ 100 ∣ k + 1 := mt h100 by4
    have by400 : ¬ 400 ∣ k + 1 := mt h400 by100
    simp only [by4, by100, by400, if_false, false_and]
    omega

theorem daysBeforeYear_mono {y y' : Nat} (hy : 1 ≤ y) (h : y ≤ y') :
    daysBeforeYear y ≤ daysBeforeYear y' := by
  induction h with
  | refl => exact Nat.le_refl _
  | step hle ih =>
    rw [Nat.succ_eq_add_one, daysBeforeYear_succ (Nat.le_trans hy hle)]
    exact Nat.le_trans ih (Nat.le_add_right _ _)

/-! ## Dates -/

namespace Date

/-- A day of the calendar, in whatever year. -/
structure Proper (d : Date) : Prop where
  year_pos : 1 ≤ d.year
  month_pos : 1 ≤ d.month
  month_le : d.month ≤ 12
  day_pos : 1 ≤ d.day
  day_le : d.day ≤ daysInMonth d.year d.month

theorem valid_iff {d : Date} : d.valid = true ↔ d.Proper ∧ d.year ≤ 9999 := by
  simp only [valid, Bool.and_eq_true, decide_eq_true_eq]
  constructor
  · rintro ⟨⟨⟨⟨⟨hy, hlast⟩, hm⟩, hm'⟩, hd⟩, hd'⟩
    exact ⟨⟨hy, hm, hm', hd, hd'⟩, hlast⟩
  · rintro ⟨⟨hy, hm, hm', hd, hd'⟩, hlast⟩
    exact ⟨⟨⟨⟨⟨hy, hlast⟩, hm⟩, hm'⟩, hd⟩, hd'⟩

def first : Date := ⟨1, 1, 1⟩

/-- The day after a date. -/
def next (d : Date) : Date :=
  if d.day < daysInMonth d.year d.month then { d with day := d.day + 1 }
  else if d.month < 12 then ⟨d.year, d.month + 1, 1⟩
  else ⟨d.year + 1, 1, 1⟩

theorem first_proper : first.Proper := ⟨by decide, by decide, by decide, by decide, by decide⟩

theorem first_dayNumber : first.dayNumber = 0 := by decide

theorem Proper.next {d : Date} (h : d.Proper) : d.next.Proper := by
  unfold Date.next
  split_ifs with hday hmonth
  · exact ⟨h.year_pos, h.month_pos, h.month_le, Nat.le_add_left 1 _, hday⟩
  · exact ⟨h.year_pos, Nat.le_add_left 1 _, hmonth, Nat.le_refl 1, daysInMonth_pos _ _⟩
  · exact ⟨Nat.le_add_left 1 _, Nat.le_refl 1, Nat.le_add_left 1 11, Nat.le_refl 1,
      daysInMonth_pos _ _⟩

/-- The days up to the end of a month. -/
theorem Proper.monthEnd {d : Date} (h : d.Proper) : daysInMonths d.year d.month =
    daysInMonths d.year (d.month - 1) + daysInMonth d.year d.month := by
  obtain ⟨m, hm⟩ : ∃ m, d.month = m + 1 := ⟨d.month - 1, by have := h.month_pos; omega⟩
  simp [hm, daysInMonths]

theorem Proper.dayNumber_next {d : Date} (h : d.Proper) : d.next.dayNumber = d.dayNumber + 1 := by
  have hend := h.monthEnd
  have hpos := h.day_pos
  have hle := h.day_le
  unfold Date.next dayNumber
  split_ifs with hday hmonth
  · dsimp only
    omega
  · simp only [Nat.add_sub_cancel]
    omega
  · have hdecember : d.month = 12 := by have := h.month_le; omega
    have hyear := daysBeforeYear_succ h.year_pos
    rw [hdecember] at hend hle hday ⊢
    dsimp only
    rw [Nat.sub_self, daysInMonths]
    omega

theorem Proper.within_year {d : Date} (h : d.Proper) :
    daysBeforeYear d.year ≤ d.dayNumber ∧ d.dayNumber < daysBeforeYear (d.year + 1) := by
  have hend := h.monthEnd
  have hyear := daysBeforeYear_succ h.year_pos
  have hmonths := daysInMonths_mono d.year h.month_le
  have hpos := h.day_pos
  have hle := h.day_le
  unfold dayNumber
  omega

/-! ## The order of days -/

/-- Year, month and day, by which dates are compared. -/
def fields (d : Date) : List Nat := [d.year, d.month, d.day]

theorem fields_lt_iff {d d' : Date} : d.fields < d'.fields ↔ d.year < d'.year ∨
    d.year = d'.year ∧ (d.month < d'.month ∨ d.month = d'.month ∧ d.day < d'.day) := by
  simp [fields, List.cons_lt_cons_iff]

theorem Proper.dayNumber_lt {d d' : Date} (h : d.Proper) (h' : d'.Proper)
    (hlt : d.fields < d'.fields) : d.dayNumber < d'.dayNumber := by
  rcases fields_lt_iff.mp hlt with hyear | ⟨hyear, hmonth | ⟨hmonth, hday⟩⟩
  · have hyears := daysBeforeYear_mono (Nat.le_add_left 1 d.year) hyear
    exact Nat.lt_of_lt_of_le h.within_year.2 (Nat.le_trans hyears h'.within_year.1)
  · have hend := h.monthEnd
    have hmonths := daysInMonths_mono d.year (Nat.le_sub_one_of_lt hmonth)
    have hpos := h.day_pos
    have hle := h.day_le
    unfold dayNumber
    rw [← hyear]
    omega
  · have hpos := h.day_pos
    unfold dayNumber
    rw [← hyear, ← hmonth]
    omega

theorem eq_or_fields_lt (d d' : Date) : d = d' ∨ d.fields < d'.fields ∨ d'.fields < d.fields := by
  rcases d with ⟨y, m, day⟩
  rcases d' with ⟨y', m', day'⟩
  simp only [fields_lt_iff, Date.mk.injEq]
  omega

theorem Proper.eq_of_dayNumber {d d' : Date} (h : d.Proper) (h' : d'.Proper)
    (heq : d.dayNumber = d'.dayNumber) : d = d' := by
  rcases eq_or_fields_lt d d' with hsame | hlt | hlt
  · exact hsame
  · exact absurd heq (Nat.ne_of_lt (h.dayNumber_lt h' hlt))
  · exact absurd heq (Nat.ne_of_gt (h'.dayNumber_lt h hlt))

/-- The later day has the greater number. -/
theorem Proper.dayNumber_lt_iff {d d' : Date} (h : d.Proper) (h' : d'.Proper) :
    d.dayNumber < d'.dayNumber ↔ d.fields < d'.fields := by
  refine ⟨fun hlt => ?_, h.dayNumber_lt h'⟩
  rcases eq_or_fields_lt d d' with rfl | hfields | hfields
  · exact absurd hlt (Nat.lt_irrefl _)
  · exact hfields
  · exact absurd hlt (Nat.lt_asymm (h'.dayNumber_lt h hfields))

end Date

/-! ## The day of a number -/

/-- The guess is off by one year at most, whatever the number. -/
theorem yearOfDay_spec (n : Nat) : 1 ≤ yearOfDay n ∧ daysBeforeYear (yearOfDay n) ≤ n ∧
    n < daysBeforeYear (yearOfDay n + 1) := by
  unfold yearOfDay
  dsimp only
  split_ifs with hlate hearly
  · refine ⟨by omega, hlate, ?_⟩
    unfold daysBeforeYear
    omega
  · unfold daysBeforeYear at hearly ⊢
    omega
  · exact ⟨by omega, Nat.le_of_not_lt hearly, Nat.lt_of_not_le hlate⟩

/-- The month that is found for a day of a year, with enough months left to look at. -/
theorem monthOfDay_spec (y later : Nat) {m n : Nat}
    (h : daysInMonths y m + n < daysInMonths y (m + 1 + later)) :
    ∃ m', monthOfDay y later (m + 1) n = (m' + 1, daysInMonths y m + n - daysInMonths y m') ∧
      m ≤ m' ∧ m' ≤ m + later ∧ daysInMonths y m' ≤ daysInMonths y m + n ∧
      daysInMonths y m + n < daysInMonths y (m' + 1) := by
  induction later generalizing m n with
  | zero => exact ⟨m, by simp [monthOfDay], Nat.le_refl m, Nat.le_refl m, Nat.le_add_right _ _, h⟩
  | succ later ih =>
    rw [monthOfDay]
    split_ifs with hn
    · refine ⟨m, by simp, Nat.le_refl m, Nat.le_add_right _ _, Nat.le_add_right _ _, ?_⟩
      exact Nat.add_lt_add_left hn _
    · -- the days of this month go over to the months before the next one
      have hmove : daysInMonths y (m + 1) + (n - daysInMonth y (m + 1)) =
          daysInMonths y m + n := by
        rw [daysInMonths]
        omega
      obtain ⟨m', hfound, hm, hm', hday⟩ := ih (m := m + 1) (n := n - daysInMonth y (m + 1)) (by
        rw [hmove]
        exact Nat.lt_of_lt_of_eq h (congrArg _ (by omega)))
      rw [hmove] at hfound hday
      exact ⟨m', hfound, by omega, by omega, hday⟩

namespace Date

/-- Every number is that of a day. -/
theorem ofDayNumber_spec (n : Nat) : (ofDayNumber n).Proper ∧ (ofDayNumber n).dayNumber = n := by
  obtain ⟨hpos, hbefore, hafter⟩ := yearOfDay_spec n
  rw [daysBeforeYear_succ hpos] at hafter
  obtain ⟨m, hfound, -, hm, hlow, hhigh⟩ := monthOfDay_spec (yearOfDay n) 11 (m := 0)
    (n := n - daysBeforeYear (yearOfDay n)) (by
      simp only [daysInMonths, Nat.zero_add] at hafter ⊢
      omega)
  simp only [daysInMonths, Nat.zero_add] at hfound hm hlow hhigh
  have hday : ofDayNumber n = ⟨yearOfDay n, m + 1,
      n - daysBeforeYear (yearOfDay n) - daysInMonths (yearOfDay n) m + 1⟩ := by
    simp only [ofDayNumber, hfound]
  rw [hday]
  refine ⟨⟨hpos, Nat.le_add_left 1 _, ?_, Nat.le_add_left 1 _, ?_⟩, ?_⟩
  · dsimp only
    omega
  · dsimp only
    omega
  · simp only [dayNumber, Nat.add_sub_cancel]
    omega

end Date

end GalleryCatalog.Calendar
