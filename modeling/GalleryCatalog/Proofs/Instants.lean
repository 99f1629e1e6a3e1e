import Mathlib.Logic.Function.Iterate
import Mathlib.Tactic.Tauto
import GalleryCatalog.Calendar.Moment
import GalleryCatalog.Proofs.DayNumbers

/-!
# Instants

A clock starts with year 1 and ticks once a microsecond. Its moments are told apart by the number
of ticks, later ones are greater in the first field in which they differ, and no tick is left out
or shown twice. A clock with an offset runs ahead of universal time, so a moment shows one
instant, and an instant has one universal moment, which the calendar has up to the end of the
year 9999.
-/

set_option autoImplicit false

namespace GalleryCatalog.Calendar

/-! ## The time of day -/

namespace TimeOfDay

/-- One microsecond later on the same day. -/
def next? (t : TimeOfDay) : Option TimeOfDay :=
  if t.micro < 999999 then some { t with micro := t.micro + 1 }
  else if t.second < 59 then some ⟨t.hour, t.minute, t.second + 1, 0⟩
  else if t.minute < 59 then some ⟨t.hour, t.minute + 1, 0, 0⟩
  else if t.hour < 23 then some ⟨t.hour + 1, 0, 0, 0⟩
  else none

def midnight : TimeOfDay := ⟨0, 0, 0, 0⟩

theorem midnight_micros : midnight.micros = 0 := rfl

theorem valid_iff {t : TimeOfDay} : t.valid = true ↔
    t.hour < 24 ∧ t.minute < 60 ∧ t.second < 60 ∧ t.micro < 1000000 := by
  simp [valid, and_assoc]

theorem micros_lt {t : TimeOfDay} (h : t.valid = true) : t.micros < microsPerDay := by
  rw [valid_iff] at h
  unfold micros microsPerDay
  omega

theorem valid_ofMicros {n : Nat} (h : n < microsPerDay) : (ofMicros n).valid = true := by
  rw [valid_iff]
  unfold ofMicros microsPerDay at *
  dsimp only
  omega

theorem micros_ofMicros (n : Nat) : (ofMicros n).micros = n := by
  unfold ofMicros micros
  dsimp only
  omega

theorem next?_eq_some {t t' : TimeOfDay} (h : t.valid = true) (hnext : t.next? = some t') :
    t'.valid = true ∧ t'.micros = t.micros + 1 := by
  rw [valid_iff] at h ⊢
  unfold next? at hnext
  split_ifs at hnext
  all_goals
    obtain rfl := Option.some.inj hnext
    unfold micros
    dsimp only
    omega

theorem next?_eq_none {t : TimeOfDay} (h : t.valid = true) (hnext : t.next? = none) :
    t.micros + 1 = microsPerDay := by
  rw [valid_iff] at h
  unfold next? at hnext
  split_ifs at hnext
  unfold micros microsPerDay
  omega

/-- Hour, minute, second and microsecond, by which times are compared. -/
def fields (t : TimeOfDay) : List Nat := [t.hour, t.minute, t.second, t.micro]

theorem micros_lt_iff {t t' : TimeOfDay} (h : t.valid = true) (h' : t'.valid = true) :
    t.micros < t'.micros ↔ t.fields < t'.fields := by
  rw [valid_iff] at h h'
  simp only [fields, List.cons_lt_cons_iff, List.lt_irrefl, and_false, or_false]
  unfold micros
  omega

theorem eq_of_micros {t t' : TimeOfDay} (h : t.valid = true) (h' : t'.valid = true)
    (heq : t.micros = t'.micros) : t = t' := by
  rw [valid_iff] at h h'
  rcases t with ⟨hour, minute, second, micro⟩
  rcases t' with ⟨hour', minute', second', micro'⟩
  simp only [micros, mk.injEq] at *
  omega

end TimeOfDay

/-! ## The clock -/

namespace Moment

/-- A day of the calendar, in whatever year, and a time of that day. -/
structure Proper (m : Moment) : Prop where
  date : m.date.Proper
  time : m.time.valid = true

/-- A moment whose parts are within their limits. The offset may be any. -/
def valid (m : Moment) : Bool :=
  m.date.valid && m.time.valid

/-- The ticks of the clock of a moment since the start of year 1. -/
def ticks (m : Moment) : Nat :=
  m.date.dayNumber * microsPerDay + m.time.micros

/-- One microsecond later by the same clock. -/
def tick (m : Moment) : Moment :=
  match m.time.next? with
  | some time => { m with time }
  | none => { m with date := m.date.next, time := .midnight }

/-- The start of year 1 by a clock with an offset. -/
def start (offset : Option Int) : Moment :=
  ⟨.first, .midnight, offset⟩

theorem instant_eq (m : Moment) : m.instant = m.ticks - m.offset.getD 0 := rfl

theorem start_proper (offset : Option Int) : (start offset).Proper :=
  ⟨Date.first_proper, rfl⟩

theorem start_ticks (offset : Option Int) : (start offset).ticks = 0 := by
  unfold ticks start
  rw [Date.first_dayNumber, Nat.zero_mul, TimeOfDay.midnight_micros]

theorem tick_offset (m : Moment) : m.tick.offset = m.offset := by
  unfold tick
  split <;> rfl

theorem Proper.tick {m : Moment} (h : m.Proper) : m.tick.Proper ∧ m.tick.ticks = m.ticks + 1 := by
  unfold Moment.tick
  split
  next time hnext =>
    obtain ⟨hvalid, hmicros⟩ := TimeOfDay.next?_eq_some h.time hnext
    refine ⟨⟨h.date, hvalid⟩, ?_⟩
    unfold ticks
    dsimp only
    omega
  next hnext =>
    have hlast := TimeOfDay.next?_eq_none h.time hnext
    refine ⟨⟨h.date.next, rfl⟩, ?_⟩
    unfold ticks
    dsimp only
    rw [h.date.dayNumber_next, TimeOfDay.midnight_micros, Nat.add_one_mul]
    omega

/-- The clock after any number of ticks. -/
theorem ticked (offset : Option Int) (n : Nat) : (tick^[n] (start offset)).Proper ∧
    (tick^[n] (start offset)).ticks = n ∧ (tick^[n] (start offset)).offset = offset := by
  induction n with
  | zero => exact ⟨start_proper offset, start_ticks offset, rfl⟩
  | succ n ih =>
    obtain ⟨hproper, hticks, hoffset⟩ := ih
    rw [Function.iterate_succ_apply']
    exact ⟨hproper.tick.1, hproper.tick.2.trans (congrArg (· + 1) hticks),
      (tick_offset _).trans hoffset⟩

/-! ## The order of moments -/

/-- All parts of a moment but its offset. Moments with one offset are compared by them. -/
def fields (m : Moment) : List Nat :=
  m.date.fields ++ m.time.fields

theorem fields_lt_iff {m m' : Moment} : m.fields < m'.fields ↔
    m.date.fields < m'.date.fields ∨ m.date = m'.date ∧ m.time.fields < m'.time.fields := by
  rcases m with ⟨⟨y, mo, d⟩, t, o⟩
  rcases m' with ⟨⟨y', mo', d'⟩, t', o'⟩
  simp only [fields, Date.fields, List.cons_append, List.nil_append, List.cons_lt_cons_iff,
    Date.mk.injEq, List.lt_irrefl, and_false, or_false]
  tauto

theorem Proper.ticks_lt_iff {m m' : Moment} (h : m.Proper) (h' : m'.Proper) :
    m.ticks < m'.ticks ↔ m.fields < m'.fields := by
  rw [fields_lt_iff, ← h.date.dayNumber_lt_iff h'.date, ← TimeOfDay.micros_lt_iff h.time h'.time]
  have hday := TimeOfDay.micros_lt h.time
  have hday' := TimeOfDay.micros_lt h'.time
  unfold ticks microsPerDay at *
  constructor
  · intro hlt
    rcases Nat.lt_or_ge m.date.dayNumber m'.date.dayNumber with hdate | hdate
    · exact .inl hdate
    · have hsame : m.date.dayNumber = m'.date.dayNumber := by omega
      exact .inr ⟨h.date.eq_of_dayNumber h'.date hsame, by omega⟩
  · rintro (hdate | ⟨hdate, htime⟩)
    · omega
    · rw [hdate]
      omega

/-- A clock shows no moment twice. -/
theorem Proper.eq_of_ticks {m m' : Moment} (h : m.Proper) (h' : m'.Proper)
    (hticks : m.ticks = m'.ticks) (hoffset : m.offset = m'.offset) : m = m' := by
  have hday := TimeOfDay.micros_lt h.time
  have hday' := TimeOfDay.micros_lt h'.time
  have hdate : m.date = m'.date := by
    apply h.date.eq_of_dayNumber h'.date
    unfold ticks microsPerDay at *
    omega
  have htime : m.time = m'.time := by
    apply TimeOfDay.eq_of_micros h.time h'.time
    unfold ticks at hticks
    rw [hdate] at hticks
    omega
  rcases m with ⟨date, time, offset⟩
  rcases m' with ⟨date', time', offset'⟩
  simp only at hdate htime hoffset
  rw [hdate, htime, hoffset]

/-! ## Instants -/

/-- A moment shows an instant when its clock, which is ahead of universal time by its offset, has
ticked from the start of year 1 to the moment by then. Without an offset it is not ahead. -/
def Shows (m : Moment) (i : Int) : Prop :=
  ∃ n : Nat, (n : Int) = i + m.offset.getD 0 ∧ m = tick^[n] (start m.offset)

theorem Proper.shows_iff {m : Moment} (h : m.Proper) {i : Int} : m.Shows i ↔ i = m.instant := by
  rw [instant_eq]
  constructor
  · rintro ⟨n, hn, hm⟩
    have hticks : m.ticks = n := (congrArg Moment.ticks hm).trans (ticked m.offset n).2.1
    omega
  · intro hi
    obtain ⟨hproper, hticks, hoffset⟩ := ticked m.offset m.ticks
    exact ⟨m.ticks, by omega, h.eq_of_ticks hproper hticks.symm hoffset.symm⟩

/-- The first moment of the calendar in universal time. -/
def first : Moment := ⟨⟨1, 1, 1⟩, ⟨0, 0, 0, 0⟩, some 0⟩

/-- The last moment of the calendar in universal time. -/
def last : Moment := ⟨⟨9999, 12, 31⟩, ⟨23, 59, 59, 999999⟩, some 0⟩

theorem first_instant : first.instant = 0 := by decide

theorem last_instant : last.instant + 1 = instantLimit := by decide

theorem valid_iff {m : Moment} : m.valid = true ↔ m.Proper ∧ m.ticks < instantLimit := by
  rw [valid, Bool.and_eq_true, Date.valid_iff]
  constructor
  · rintro ⟨⟨hdate, hyear⟩, htime⟩
    have hafter := hdate.within_year.2
    have hyears : daysBeforeYear (m.date.year + 1) ≤ daysBeforeYear 10000 :=
      daysBeforeYear_mono (Nat.le_add_left 1 _) (Nat.succ_le_succ hyear)
    have hday := TimeOfDay.micros_lt htime
    refine ⟨⟨hdate, htime⟩, ?_⟩
    unfold ticks instantLimit dayLimit microsPerDay at *
    omega
  · rintro ⟨⟨hdate, htime⟩, hlimit⟩
    refine ⟨⟨hdate, ?_⟩, htime⟩
    by_contra hyear
    have hbefore := hdate.within_year.1
    have hyears : daysBeforeYear 10000 ≤ daysBeforeYear m.date.year :=
      daysBeforeYear_mono (Nat.le_add_left 1 _) (Nat.lt_of_not_le hyear)
    unfold ticks instantLimit dayLimit microsPerDay at *
    omega

theorem ofInstant_spec {n : Nat} (h : n < instantLimit) :
    (ofInstant n).valid = true ∧ (ofInstant n).ticks = n := by
  have hpos : 0 < microsPerDay := by decide
  obtain ⟨hdate, hnumber⟩ := Date.ofDayNumber_spec (n / microsPerDay)
  have hticks : (ofInstant n).ticks = n := by
    unfold ofInstant ticks
    dsimp only
    rw [hnumber, TimeOfDay.micros_ofMicros, Nat.div_add_mod']
  refine ⟨valid_iff.mpr ⟨⟨hdate, TimeOfDay.valid_ofMicros (Nat.mod_lt n hpos)⟩, ?_⟩, hticks⟩
  rwa [hticks]

/-- The universal moment of a moment is the one moment of the calendar, without an offset from
universal time, that shows the same instant. -/
theorem universal?_eq_some {m u : Moment} :
    m.universal? = some u ↔ u.valid = true ∧ u.offset = some 0 ∧ u.instant = m.instant := by
  unfold universal?
  constructor
  · intro h
    split_ifs at h with hrange
    obtain rfl := Option.some.inj h
    obtain ⟨hvalid, hticks⟩ := ofInstant_spec (n := m.instant.toNat) (by omega)
    refine ⟨hvalid, rfl, ?_⟩
    rw [instant_eq, hticks]
    simp only [ofInstant, Option.getD_some]
    omega
  · rintro ⟨hvalid, hoffset, hinstant⟩
    obtain ⟨hproper, hlimit⟩ := valid_iff.mp hvalid
    have hticks : (u.ticks : Int) = m.instant := by
      rw [← hinstant, instant_eq, hoffset]
      simp
    obtain ⟨hfound, hsame⟩ := ofInstant_spec (n := m.instant.toNat) (by omega)
    rw [if_pos (by omega)]
    refine congrArg some ((valid_iff.mp hfound).1.eq_of_ticks hproper ?_ hoffset.symm)
    omega

theorem universal?_eq_none {m : Moment} :
    m.universal? = none ↔ m.instant < first.instant ∨ last.instant < m.instant := by
  have hlast := last_instant
  rw [first_instant]
  unfold universal?
  split_ifs with hrange
  · simp only [false_iff]
    omega
  · simp only [true_iff]
    omega

/-- A local moment of the calendar counts as universal, so it is within the calendar. -/
theorem universal?_of_local {m : Moment} (h : m.valid = true) (hlocal : m.offset = none) :
    m.universal? = some { m with offset := some 0 } := by
  rw [universal?_eq_some]
  exact ⟨h, rfl, by rw [instant_eq, instant_eq, hlocal]; rfl⟩

variable {m m' u u' : Moment}

/-- Moments are bound to one value where they show one instant. -/
theorem universal?_eq_iff (hu : m.universal? = some u) (hu' : m'.universal? = some u') :
    m.instant = m'.instant ↔ u = u' := by
  obtain ⟨hvalid, hoffset, hinstant⟩ := universal?_eq_some.mp hu
  obtain ⟨-, -, hinstant'⟩ := universal?_eq_some.mp hu'
  constructor
  · intro hsame
    have hfits : m'.universal? = some u :=
      universal?_eq_some.mpr ⟨hvalid, hoffset, hinstant.trans hsame⟩
    exact Option.some.inj (hfits.symm.trans hu')
  · rintro rfl
    exact hinstant.symm.trans hinstant'

/-- The bound value of an earlier instant is the earlier one. -/
theorem universal?_lt_iff (hu : m.universal? = some u) (hu' : m'.universal? = some u') :
    m.instant < m'.instant ↔ u.fields < u'.fields := by
  obtain ⟨hvalid, hoffset, hinstant⟩ := universal?_eq_some.mp hu
  obtain ⟨hvalid', hoffset', hinstant'⟩ := universal?_eq_some.mp hu'
  rw [← hinstant, ← hinstant', instant_eq, instant_eq, hoffset, hoffset',
    ← (valid_iff.mp hvalid).1.ticks_lt_iff (valid_iff.mp hvalid').1]
  omega

end Moment

end GalleryCatalog.Calendar
