import GalleryCatalog.Json.Reader

/-!
# Distinct names

A name that is repeated in the text of an object replaces what stood there before. So in a value
that was read no object has a name twice, at any depth. The induction is on the fuel of the reader,
and what carries it over the members of an object is that those read so far have distinct names.
-/

set_option autoImplicit false

namespace GalleryCatalog.Json

/-- No object in the value has a name twice. -/
inductive Value.Distinct : Value → Prop
  | null : Distinct .null
  | flag (b : Bool) : Distinct (.flag b)
  | integer (n : Int) : Distinct (.integer n)
  | real (x : Number.Binary64) : Distinct (.real x)
  | text (s : String) : Distinct (.text s)
  | array {items : List Value} (h : ∀ v ∈ items, Distinct v) : Distinct (.array items)
  | object {ms : Members} (names : (ms.map Prod.fst).Nodup) (values : ∀ m ∈ ms, Distinct m.2) :
      Distinct (.object ms)

theorem mem_put {name : String} {v : Value} {ms : Members} {m : String × Value}
    (h : m ∈ put name v ms) : m = (name, v) ∨ m ∈ ms := by
  induction ms with
  | nil => exact .inl (List.mem_singleton.mp h)
  | cons first ms ih =>
    rw [put] at h
    by_cases hfirst : first.1 = name
    · rw [if_pos hfirst, List.mem_cons] at h
      exact h.imp_right (List.mem_cons_of_mem first)
    · rw [if_neg hfirst, List.mem_cons] at h
      rcases h with rfl | h
      · exact .inr List.mem_cons_self
      · exact (ih h).imp_right (List.mem_cons_of_mem first)

theorem Value.Distinct.put {name : String} {v : Value} {ms : Members} (hv : v.Distinct)
    (h : (Value.object ms).Distinct) : (Value.object (put name v ms)).Distinct := by
  cases h with
  | object names values =>
    constructor
    · rw [map_fst_put]
      by_cases hname : name ∈ ms.map Prod.fst
      · rwa [if_pos hname]
      · rw [if_neg hname, List.nodup_append]
        refine ⟨names, by simp, ?_⟩
        rintro a ha b hb rfl
        exact hname (List.mem_singleton.mp hb ▸ ha)
    · intro m hm
      rcases mem_put hm with rfl | hm
      · exact hv
      · exact values m hm

theorem readUnsigned_distinct {negative : Bool} {cs rest : List Char} {v : Value}
    (h : readUnsigned negative cs = some (v, rest)) : v.Distinct := by
  simp only [readUnsigned, Option.bind_eq_bind, Option.bind_eq_some_iff] at h
  obtain ⟨whole, _, fraction, _, exponent, _, h⟩ := h
  split at h <;> cases h
  · exact .integer _
  · exact .real _

theorem readNumber_distinct {cs rest : List Char} {v : Value}
    (h : readNumber cs = some (v, rest)) : v.Distinct := by
  unfold readNumber at h
  split at h
  · cases h
    exact .real _
  · exact readUnsigned_distinct h
  · exact readUnsigned_distinct h

/-- What each of the three readers gives with some fuel. -/
structure ReadsDistinct (fuel : Nat) : Prop where
  value {depth : Nat} {cs rest : List Char} {v : Value} :
    readValue fuel depth cs = some (v, rest) → v.Distinct
  items {depth : Nat} {cs rest : List Char} {vs : List Value} :
    readItems fuel depth cs = some (vs, rest) → ∀ v ∈ vs, v.Distinct
  members {depth : Nat} {cs rest : List Char} {ms ms' : Members} :
    (Value.object ms).Distinct → readMembers fuel depth ms cs = some (ms', rest) →
      (Value.object ms').Distinct

theorem empty_distinct : (Value.object []).Distinct :=
  .object .nil (by simp)

theorem ReadsDistinct.value_succ {fuel depth : Nat} {cs rest : List Char} {v : Value}
    (ih : ReadsDistinct fuel) (h : readValue (fuel + 1) depth cs = some (v, rest)) :
    v.Distinct := by
  unfold readValue at h
  split at h
  · obtain ⟨r, -, h⟩ := Option.map_eq_some_iff.mp h
    cases h
    exact .text _
  · split at h
    · cases h
      exact empty_distinct
    · split at h
      · cases h
      · obtain ⟨r, hr, h⟩ := Option.map_eq_some_iff.mp h
        cases h
        exact ih.members empty_distinct hr
  · split at h
    · cases h
      exact .array (by simp)
    · split at h
      · cases h
      · obtain ⟨r, hr, h⟩ := Option.map_eq_some_iff.mp h
        cases h
        exact .array (ih.items hr)
  -- The five words: two flags, null and two numbers.
  iterate 5
    · cases h
      constructor
  · exact readNumber_distinct h

theorem ReadsDistinct.items_succ {fuel depth : Nat} {cs rest : List Char} {vs : List Value}
    (ih : ReadsDistinct fuel) (h : readItems (fuel + 1) depth cs = some (vs, rest)) :
    ∀ v ∈ vs, v.Distinct := by
  simp only [readItems, Option.bind_eq_bind, Option.bind_eq_some_iff] at h
  obtain ⟨⟨v, after⟩, hv, h⟩ := h
  split at h
  · cases h
    intro u hu
    exact List.mem_singleton.mp hu ▸ ih.value hv
  · rw [Option.bind_eq_some_iff] at h
    obtain ⟨⟨us, after⟩, hus, h⟩ := h
    cases h
    exact List.forall_mem_cons.mpr ⟨ih.value hv, ih.items hus⟩
  · cases h

theorem ReadsDistinct.members_succ {fuel depth : Nat} {cs rest : List Char} {ms ms' : Members}
    (ih : ReadsDistinct fuel) (hms : (Value.object ms).Distinct)
    (h : readMembers (fuel + 1) depth ms cs = some (ms', rest)) :
    (Value.object ms').Distinct := by
  unfold readMembers at h
  split at h
  · simp only [Option.bind_eq_bind, Option.bind_eq_some_iff] at h
    obtain ⟨⟨name, after⟩, -, h⟩ := h
    split at h
    · rw [Option.bind_eq_some_iff] at h
      obtain ⟨⟨v, after⟩, hv, h⟩ := h
      have hput : (Value.object (put name v ms)).Distinct := (ih.value hv).put hms
      split at h
      · cases h
        exact hput
      · exact ih.members hput h
      · cases h
    · cases h
  · cases h

theorem readsDistinct (fuel : Nat) : ReadsDistinct fuel := by
  induction fuel with
  | zero => constructor <;> simp [readValue, readItems, readMembers]
  | succ fuel ih => exact ⟨ih.value_succ, ih.items_succ, ih.members_succ⟩

theorem read?_distinct {s : String} {v : Value} (h : read? s = some v) : v.Distinct := by
  simp only [read?, Option.bind_eq_bind, Option.bind_eq_some_iff] at h
  obtain ⟨⟨u, rest⟩, hread, h⟩ := h
  split at h <;> cases h
  exact (readsDistinct _).value hread

theorem ofBytes?_distinct {bytes : ByteArray} {v : Value} (h : ofBytes? bytes = some v) :
    v.Distinct := by
  obtain ⟨s, -, hread⟩ := Option.bind_eq_some_iff.mp h
  exact read?_distinct hread

end GalleryCatalog.Json
