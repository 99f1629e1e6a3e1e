import GalleryCatalog.Number.Binary64

/-!
# JSON values

An object keeps each name once, where it first stood, with the value written last.
-/

set_option autoImplicit false

namespace GalleryCatalog.Json

inductive Value where
  | null
  | flag (b : Bool)
  | integer (n : Int)
  | real (x : Number.Binary64)
  | text (s : String)
  | array (items : List Value)
  | object (members : List (String × Value))
  deriving Repr

abbrev Members := List (String × Value)

def put (name : String) (v : Value) : Members → Members
  | [] => [(name, v)]
  | m :: ms => if m.1 = name then (name, v) :: ms else m :: put name v ms

theorem map_fst_put (name : String) (v : Value) (ms : Members) :
    (put name v ms).map Prod.fst =
      if name ∈ ms.map Prod.fst then ms.map Prod.fst else ms.map Prod.fst ++ [name] := by
  induction ms with
  | nil => simp [put]
  | cons m ms ih =>
    by_cases h : m.1 = name
    · simp [put, h]
    · simp only [put, h, if_false, List.map_cons, ih, List.mem_cons, Ne.symm h, false_or]
      split <;> simp

theorem lookup_put (name other : String) (v : Value) (ms : Members) :
    (put name v ms).lookup other = if other = name then some v else ms.lookup other := by
  induction ms with
  | nil =>
    by_cases h : other = name
    · simp [put, h]
    · simp [put, h, List.lookup_cons, beq_eq_false_iff_ne.mpr h]
  | cons m ms ih =>
    obtain ⟨key, old⟩ := m
    by_cases hm : key = name
    · by_cases h : other = name
      · simp [put, hm, h]
      · simp [put, hm, h, List.lookup_cons, beq_eq_false_iff_ne.mpr h]
    · by_cases h : other = key
      · have hn : ¬ other = name := fun hn => hm (h ▸ hn)
        simp [put, hm, List.lookup_cons, beq_iff_eq.mpr h, hn]
      · simp [put, hm, List.lookup_cons, beq_eq_false_iff_ne.mpr h, ih]

end GalleryCatalog.Json
