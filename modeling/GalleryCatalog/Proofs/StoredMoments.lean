import GalleryCatalog.Proofs.Instants
import GalleryCatalog.Proofs.ServiceRun

/-!
# Stored moments

A moment is stored as the universal moment of its instant, without its offset of zero. That fails
exactly where the calendar has no such moment, which no local moment brings about. Otherwise the
instant is kept, whatever the offset was, and so is the order of instants, and what is read back
from the store is the universal moment again.
-/

set_option autoImplicit false

namespace GalleryCatalog.Calendar.Moment

/-- What is read back of a universal moment that lost its offset of zero. -/
theorem restored_bare {u : Moment} (h : u.offset = some 0) : u.bare.restored = u := by
  rcases u with ⟨date, time, offset⟩
  obtain rfl : offset = some 0 := h
  rfl

/-- An archive whose date has no universal moment is not stored. -/
theorem addArchive_undated {a : NewArchive} (h : a.created.universal? = none) (s : Store) :
    Store.addArchive a s = .error .dateOutOfRange s := by
  simp only [Store.addArchive, h]
  rfl

/-- The instant that a moment shows is the only one, by a clock that ticks through the calendar.
Binding a moment keeps it, or fails where the calendar does not reach. Instants and bound values
are equal, and earlier than one another, together. The store holds the bound value without its
offset and gives it back. -/
theorem universal_keeps_instant {m : Moment} (hm : m.valid = true) :
    (∀ i, m.Shows i ↔ i = m.instant) ∧
      (m.universal? = none ↔ m.instant < first.instant ∨ last.instant < m.instant) ∧
      (m.offset = none → m.universal? ≠ none) ∧
      (∀ u, m.universal? = some u → u.valid = true ∧ u.offset = some 0 ∧ u.Shows m.instant ∧
        u.universal? = some u ∧ u.bare.offset = none ∧ u.bare.restored = u) ∧
      (∀ m' u u' : Moment, m.universal? = some u → m'.universal? = some u' →
        (m.instant = m'.instant ↔ u = u') ∧ (m.instant < m'.instant ↔ u.fields < u'.fields)) ∧
      ∀ (a : NewArchive) (s : Store), a.created = m →
        (m.universal? = none → Store.addArchive a s = .error .dateOutOfRange s) ∧
        ∀ id s', Store.addArchive a s = .ok id s' → ∃ row, s'.archives = s.archives ++ [row] ∧
          row.created.offset = none ∧ m.universal? = some row.created.restored := by
  have hproper := (valid_iff.mp hm).1
  refine ⟨fun i => hproper.shows_iff, universal?_eq_none, fun hlocal => ?_, fun u hu => ?_,
    fun m' u u' hu hu' => ⟨universal?_eq_iff hu hu', universal?_lt_iff hu hu'⟩, ?_⟩
  · rw [universal?_of_local hm hlocal]
    exact Option.some_ne_none _
  · obtain ⟨hvalid, hoffset, hinstant⟩ := universal?_eq_some.mp hu
    have hshows : u.Shows m.instant := (valid_iff.mp hvalid).1.shows_iff.mpr hinstant.symm
    exact ⟨hvalid, hoffset, hshows, universal?_eq_some.mpr ⟨hvalid, hoffset, rfl⟩, rfl,
      restored_bare hoffset⟩
  · rintro a s rfl
    refine ⟨fun hnone => addArchive_undated hnone s, fun id s' hadded => ?_⟩
    obtain ⟨row, u, rfl, -, -, -, hu, hrow, -⟩ := Service.addArchive_dated hadded
    refine ⟨row, rfl, by rw [hrow]; rfl, ?_⟩
    rw [hu, hrow, restored_bare (universal?_eq_some.mp hu).2.1]

/-- Half past midnight on the first of March, an hour ahead, is the evening of the leap day, and
the start of year 1, an hour ahead, lies before the calendar. -/
theorem leap_day_kept :
    let m : Moment := ⟨⟨2020, 3, 1⟩, ⟨0, 30, 0, 0⟩, some 3600000000⟩
    let u : Moment := ⟨⟨2020, 2, 29⟩, ⟨23, 30, 0, 0⟩, some 0⟩
    let early : Moment := ⟨⟨1, 1, 1⟩, ⟨0, 0, 0, 0⟩, some 3600000000⟩
    m.valid = true ∧ m.universal? = some u ∧ u.Shows m.instant ∧ u.bare.restored = u ∧
      early.valid = true ∧ early.universal? = none := by
  intro m u early
  have hvalid : m.valid = true := by decide
  have hu : m.universal? = some u := by decide +kernel
  have hearly : early.valid = true := by decide
  obtain ⟨-, -, -, hkept, -⟩ := universal_keeps_instant hvalid
  obtain ⟨-, -, hshows, -, -, hrestored⟩ := hkept u hu
  obtain ⟨-, hfails, -⟩ := universal_keeps_instant hearly
  exact ⟨hvalid, hu, hshows, hrestored, hearly, hfails.mpr (.inl (by decide))⟩

end GalleryCatalog.Calendar.Moment
