import GalleryCatalog.Proofs.Acceptance
import GalleryCatalog.Proofs.DistinctNames
import GalleryCatalog.Proofs.FirstOf

/-!
# Each key is reported once

The records of a document are checked one by one, entries before the document. One that is right
carries its keys of no known meaning, also when another part of the document is wrong. The first
record that carries a key has it in its warning, and no other warning has it, in all documents that
are read one after the other. What carries the induction is that the keys reported by some moment
are those carried until then.
-/

set_option autoImplicit false

namespace GalleryCatalog.Payload

open Json (Value Members)

/-! ## Reports of carriers -/

section Reports

variable {reported : List String} {c w : Carrier} {cs : List Carrier} {key : String}

theorem mem_newKeys : key ∈ newKeys reported c ↔ key ∈ c.keys ∧ key ∉ reported := by
  simp [newKeys]

theorem report_append (reported : List String) (cs ds : List Carrier) :
    report reported (cs ++ ds) = ((report reported cs).1 ++ (report (report reported cs).2 ds).1,
      (report (report reported cs).2 ds).2) := by
  induction cs generalizing reported with
  | nil => rfl
  | cons c cs ih =>
    simp only [List.cons_append, report, ih]
    split <;> rfl

theorem mem_reported :
    key ∈ (report reported cs).2 ↔ key ∈ reported ∨ ∃ c ∈ cs, key ∈ c.keys := by
  induction cs generalizing reported with
  | nil => simp [report]
  | cons c cs ih =>
    simp only [report, ih, List.mem_append, mem_newKeys, List.exists_mem_cons_iff]
    by_cases hold : key ∈ reported <;> simp [hold]

theorem mem_reports :
    (∃ w ∈ (report reported cs).1, key ∈ w.keys) ↔ key ∉ reported ∧ ∃ c ∈ cs, key ∈ c.keys := by
  induction cs generalizing reported with
  | nil => simp [report]
  | cons c cs ih =>
    have hhead : (∃ w ∈ (report reported (c :: cs)).1, key ∈ w.keys) ↔
        key ∈ newKeys reported c ∨
          ∃ w ∈ (report (reported ++ newKeys reported c) cs).1, key ∈ w.keys := by
      rw [report]
      split
      next hnone => simp [hnone]
      next => simp
    rw [hhead, ih, List.mem_append, mem_newKeys, List.exists_mem_cons_iff]
    by_cases hold : key ∈ reported <;> by_cases hkey : key ∈ c.keys <;> simp [hold, hkey]

theorem reports_new (h : w ∈ (report reported cs).1) :
    w.keys ≠ [] ∧ ∃ c ∈ cs, w.keys.Sublist c.keys := by
  induction cs generalizing reported with
  | nil => simp [report] at h
  | cons c cs ih =>
    have hlater (hw : w ∈ (report (reported ++ newKeys reported c) cs).1) :
        w.keys ≠ [] ∧ ∃ d ∈ c :: cs, w.keys.Sublist d.keys := by
      obtain ⟨hsome, d, hd, hkeys⟩ := ih hw
      exact ⟨hsome, d, List.mem_cons_of_mem c hd, hkeys⟩
    rw [report] at h
    split at h
    next => exact hlater h
    next hsome =>
      rcases List.mem_cons.mp h with rfl | h
      · exact ⟨hsome, c, List.mem_cons_self, List.filter_sublist⟩
      · exact hlater h

end Reports

/-! ## Records -/

/-- An object of a document that is checked by itself, the document included. -/
structure Record where
  model : Model
  members : Members

namespace Record

def known : Record → List String
  | ⟨.source, _⟩ => sourceKeys
  | ⟨.image, ms⟩ => imageKeys ms
  | ⟨.tag, _⟩ => tagKeys
  | ⟨.document, _⟩ => documentKeys

def Right : Record → Prop
  | ⟨.source, ms⟩ => ∃ e, IsSource (.object ms) e
  | ⟨.image, ms⟩ => ∃ e, IsImage (.object ms) e
  | ⟨.tag, ms⟩ => ∃ e, IsTag (.object ms) e
  | ⟨.document, ms⟩ => ∃ d, IsDocument (.object ms) d

/-- A right record carries its keys of no known meaning. -/
def Carries (r : Record) (key : String) : Prop :=
  r.Right ∧ key ∈ r.members.map Prod.fst ∧ key ∉ r.known

def violations : Record → List Violation
  | ⟨.source, ms⟩ => (source (.object ms)).violations
  | ⟨.image, ms⟩ => (image (.object ms)).violations
  | ⟨.tag, ms⟩ => (tagObject (.object ms)).violations
  | ⟨.document, ms⟩ => (document (.object ms)).violations

def extras (r : Record) : List String :=
  unmodeled r.known r.members

def carrier? (r : Record) : Option Carrier :=
  if r.violations = [] ∧ r.extras ≠ [] then some ⟨r.model, r.extras⟩ else none

theorem violations_eq_nil (r : Record) : r.violations = [] ↔ r.Right := by
  obtain ⟨model, ms⟩ := r
  cases model with
  | source => exact (source_decides (.object ms)).violations_eq_nil
  | image => exact (image_decides (.object ms)).violations_eq_nil
  | tag =>
    have hobject (e : TagEntry) : IsTag (.object ms) e ∧ (∀ s, .object ms ≠ Value.text s) ↔
        IsTag (.object ms) e := and_iff_left (by simp)
    exact ((tagObject_decides (.object ms)).congr hobject).violations_eq_nil
  | document => exact (document_decides (.object ms)).violations_eq_nil

theorem mem_extras {r : Record} {key : String} :
    key ∈ r.extras ↔ key ∈ r.members.map Prod.fst ∧ key ∉ r.known := by
  simp [extras, unmodeled, List.mem_mergeSort]

theorem carrier?_eq_some {r : Record} {c : Carrier} :
    r.carrier? = some c ↔ r.Right ∧ r.extras ≠ [] ∧ c = ⟨r.model, r.extras⟩ := by
  rw [← violations_eq_nil, carrier?]
  split_ifs with h
  · simp [h, eq_comm]
  · simpa using fun hright hsome => absurd ⟨hright, hsome⟩ h

theorem carries_iff {r : Record} {key : String} :
    r.Carries key ↔ ∃ c, r.carrier? = some c ∧ key ∈ c.keys := by
  simp only [Carries, ← mem_extras, carrier?_eq_some]
  constructor
  · rintro ⟨hright, hkey⟩
    exact ⟨_, ⟨hright, List.ne_nil_of_mem hkey, rfl⟩, hkey⟩
  · rintro ⟨c, ⟨hright, -, rfl⟩, hkey⟩
    exact ⟨hright, hkey⟩

theorem exists_carrier {rs : List Record} {key : String} :
    (∃ c ∈ rs.filterMap carrier?, key ∈ c.keys) ↔ ∃ r ∈ rs, r.Carries key := by
  simp only [List.mem_filterMap, carries_iff]
  constructor
  · rintro ⟨c, ⟨r, hr, hc⟩, hkey⟩
    exact ⟨r, hr, c, hc, hkey⟩
  · rintro ⟨r, hr, c, hc, hkey⟩
    exact ⟨c, ⟨r, hr, hc⟩, hkey⟩

end Record

def entryRecord? (model : Model) : Value → Option Record
  | .object ms => some ⟨model, ms⟩
  | _ => none

def entryRecords (model : Model) : Option Value → List Record
  | some (.array items) => items.filterMap (entryRecord? model)
  | _ => []

/-- The records of a document in the order in which they are checked. -/
def records : Value → List Record
  | .object ms =>
    entryRecords .source (ms.lookup "sources") ++ entryRecords .image (ms.lookup "images") ++
      entryRecords .tag (ms.lookup "tags") ++ [⟨.document, ms⟩]
  | _ => []

/-! ## Carriers of checks -/

section Carriers

variable {α : Type}

theorem Check.carriers_all (xs : List (Check α)) :
    (Check.all xs).carriers = xs.flatMap Check.carriers := by
  induction xs with
  | nil => rfl
  | cons x xs ih => exact congrArg (x.carriers ++ ·) ih

theorem Check.carriers_carrying {x : Check α} {model : Model} {keys : List String}
    (h : (x.carrying model keys).outcome ≠ .error []) :
    (x.carrying model keys).carriers = x.carriers ++
      if (x.carrying model keys).violations = [] ∧ keys ≠ [] then [⟨model, keys⟩] else [] := by
  rw [Check.carrying_outcome] at h
  rw [Check.violations_carrying, Check.carrying, Check.violations]
  cases hx : x.outcome with
  | ok a => by_cases hkeys : keys = [] <;> simp [hkeys]
  | error vs =>
    have hsome : vs ≠ [] := fun hnil => h (hnil ▸ hx)
    simp [hsome]

theorem optional_carriers {check : Value → Check α} (h : ∀ v, (check v).carriers = [])
    (ms : Members) (name : String) (absent : α) :
    (optional ms name absent check).carriers = [] := by
  unfold optional
  cases ms.lookup name with
  | none => rfl
  | some v => exact h v

theorem required_carriers {check : Value → Check α} (h : ∀ v, (check v).carriers = [])
    (ms : Members) (name : String) : (required ms name check).carriers = [] := by
  unfold required
  cases ms.lookup name with
  | none => rfl
  | some v => exact h v

theorem nullable_carriers {check : Value → Check α} (h : ∀ v, (check v).carriers = [])
    (v : Value) : (nullable check v).carriers = [] := by
  cases v with
  | null => rfl
  | _ => exact h _

theorem text_carriers (v : Value) : (text v).carriers = [] := by
  cases v <;> rfl

theorem nonEmptyText_carriers (v : Value) : (nonEmptyText v).carriers = [] := by
  cases v with
  | text s =>
    rw [nonEmptyText]
    split <;> rfl
  | _ => rfl

theorem integerThat_carriers (holds : Int → Bool) (fault : Fault) (v : Value) :
    (integerThat holds fault v).carriers = [] := by
  unfold integerThat
  split
  · split <;> rfl
  · rfl

/-- The carrier that a value gives when it is checked as a record. -/
def entryCarriers (model : Model) (v : Value) : List Carrier :=
  (entryRecord? model v).toList.filterMap Record.carrier?

theorem entryCarriers_object (model : Model) (ms : Members) :
    entryCarriers model (.object ms) = (Record.carrier? ⟨model, ms⟩).toList := by
  cases h : Record.carrier? ⟨model, ms⟩ <;> simp [entryCarriers, entryRecord?, h]

/-- A record adds its carrier, if it has one, to those of its parts. -/
theorem Record.carriers_carrying (r : Record) {x : Check α}
    (hviolations : (x.carrying r.model r.extras).violations = r.violations)
    (hreports : (x.carrying r.model r.extras).outcome ≠ .error []) :
    (x.carrying r.model r.extras).carriers = x.carriers ++ r.carrier?.toList := by
  rw [Check.carriers_carrying hreports, hviolations, Record.carrier?]
  split_ifs <;> rfl

theorem source_carriers (v : Value) : (source v).carriers = entryCarriers .source v := by
  cases v with
  | object ms =>
    have hmember (name : String) :=
      optional_carriers (nullable_carriers text_carriers) ms name none
    rw [entryCarriers_object]
    refine (Record.carriers_carrying ⟨.source, ms⟩ rfl
      (source_decides (.object ms)).reports).trans ?_
    simp [Check.map, Check.both, hmember]
  | _ => rfl

theorem image_carriers (v : Value) : (image v).carriers = entryCarriers .image v := by
  cases v with
  | object ms =>
    have hfile := required_carriers nonEmptyText_carriers ms "filename"
    have hpage : (required ms (pageKey ms) pageNumber).carriers = [] :=
      required_carriers (integerThat_carriers _ _) ms (pageKey ms)
    have hsize (name : String) : (optional ms name none (nullable dimension)).carriers = [] :=
      optional_carriers (nullable_carriers (integerThat_carriers _ _)) ms name none
    rw [entryCarriers_object]
    refine (Record.carriers_carrying ⟨.image, ms⟩ rfl (image_decides (.object ms)).reports).trans ?_
    simp [Check.map, Check.both, hfile, hpage, hsize]
  | _ => rfl

theorem tagObject_carriers (ms : Members) :
    (tagObject (.object ms)).carriers = entryCarriers .tag (.object ms) := by
  have hname := required_carriers nonEmptyText_carriers ms "name"
  have hspace := optional_carriers text_carriers ms "namespace" ""
  rw [entryCarriers_object]
  refine (Record.carriers_carrying ⟨.tag, ms⟩ rfl (tagObject_decides (.object ms)).reports).trans ?_
  simp [Check.map, Check.both, hname, hspace]

theorem tag_carriers (v : Value) : (tag v).carriers = entryCarriers .tag v := by
  cases v with
  | object ms =>
    rw [← tagObject_carriers, tag]
    · split
      · rfl
      · exact List.append_nil _
    · simp
  | _ => rfl

theorem collection_carriers {check : Value → Check α} {model : Model}
    (h : ∀ v, (check v).carriers = entryCarriers model v) (ms : Members) (name : String) :
    (optional ms name none (nullable (arrayOf check))).carriers =
      (entryRecords model (ms.lookup name)).filterMap Record.carrier? := by
  unfold optional entryRecords
  rcases ms.lookup name with _ | v
  · rfl
  · cases v with
    | array items =>
      have hitems :
          (arrayOf check (.array items)).carriers = items.flatMap (entryCarriers model) := by
        rw [arrayOf, Check.carriers_all, List.flatMap_map]
        simp only [Check.within, h]
        rw [← List.flatMap_map, List.zipIdx_map_fst]
      have hrecords : (items.filterMap (entryRecord? model)).filterMap Record.carrier? =
          items.flatMap (entryCarriers model) := by
        rw [List.filterMap_eq_flatMap_toList (entryRecord? model) items, List.filterMap_flatMap]
        rfl
      exact hitems.trans hrecords.symm
    | _ => rfl

theorem document_carriers (v : Value) :
    (document v).carriers = (records v).filterMap Record.carrier? := by
  cases v with
  | object ms =>
    have hsources := collection_carriers source_carriers ms "sources"
    have himages := collection_carriers image_carriers ms "images"
    have htags := collection_carriers tag_carriers ms "tags"
    refine (Record.carriers_carrying ⟨.document, ms⟩ rfl
      (document_decides (.object ms)).reports).trans ?_
    cases hown : Record.carrier? ⟨.document, ms⟩ <;>
      simp [Check.map, Check.both, hsources, himages, htags, records, hown]
  | _ => rfl

end Carriers

/-! ## Logs -/

/-- A document as it is handed over. -/
inductive Raw where
  | text (s : String)
  | bytes (b : ByteArray)

namespace Raw

def value? : Raw → Option Value
  | .text s => Json.read? s
  | .bytes b => Json.ofBytes? b

/-- The records of a document, none if it is no JSON. -/
def records (raw : Raw) : List Record :=
  raw.value?.toList.flatMap Payload.records

end Raw

/-- The warnings about documents that are read one after the other. -/
def log : List String → List Raw → List Carrier
  | _, [] => []
  | reported, raw :: raws =>
    (parse reported raw.value?).reports ++ log (parse reported raw.value?).reported raws

section Log

variable {raw : Raw} {raws : List Raw}

theorem parse_reports (reported : List String) (raw : Raw) :
    ((parse reported raw.value?).reports, (parse reported raw.value?).reported) =
      report reported (raw.records.filterMap Record.carrier?) := by
  unfold Raw.records
  cases raw.value? with
  | none => rfl
  | some v => simp [parse, accepted, document_carriers]

theorem log_eq (reported : List String) (raws : List Raw) :
    log reported raws =
      (report reported ((raws.flatMap Raw.records).filterMap Record.carrier?)).1 := by
  induction raws generalizing reported with
  | nil => rfl
  | cons raw raws ih =>
    have hparse := parse_reports reported raw
    rw [Prod.ext_iff] at hparse
    rw [log, ih, List.flatMap_cons, List.filterMap_append, report_append, ← hparse.1, ← hparse.2]

end Log

/-- The warning of a record that stands after others: it has the keys that this record is the first
to carry, and the warnings before it have those that the others carry. -/
structure WarnsFor (others : List Record) (r : Record) (earlier : List Carrier) (w : Carrier) :
    Prop where
  model : w.model = r.model
  keys : ∀ key, key ∈ w.keys ↔ r.Carries key ∧ ∀ x ∈ others, ¬ x.Carries key
  earlier : ∀ key, (∃ x ∈ earlier, key ∈ x.keys) ↔ ∃ x ∈ others, x.Carries key

/-- The warnings of a list of records. -/
def warnings (rs : List Record) : List Carrier :=
  (report [] (rs.filterMap Record.carrier?)).1

theorem mem_warnings {rs : List Record} {key : String} :
    (∃ w ∈ warnings rs, key ∈ w.keys) ↔ ∃ r ∈ rs, r.Carries key := by
  rw [warnings, mem_reports, Record.exists_carrier]
  simp

/-- The first record that carries a key warns of it, and no other. -/
theorem warnings_first {before : List Record} {r : Record} {key : String} (after : List Record)
    (hr : r.Carries key) (hfirst : ∀ x ∈ before, ¬ x.Carries key) :
    ∃ w later, warnings (before ++ r :: after) = warnings before ++ w :: later ∧
      WarnsFor before r (warnings before) w ∧ key ∈ w.keys ∧
      ∀ x ∈ warnings before ++ later, key ∉ x.keys := by
  obtain ⟨c, hc, -⟩ := Record.carries_iff.mp hr
  obtain ⟨-, -, hmodel⟩ := Record.carrier?_eq_some.mp hc
  obtain ⟨seen, hseen⟩ : ∃ seen, seen = (report [] (before.filterMap Record.carrier?)).2 :=
    ⟨_, rfl⟩
  have hold (k : String) : k ∈ seen ↔ ∃ x ∈ before, x.Carries k := by
    rw [hseen, mem_reported, Record.exists_carrier]
    simp
  have hnew (k : String) : k ∈ newKeys seen c ↔ r.Carries k ∧ ∀ x ∈ before, ¬ x.Carries k := by
    rw [mem_newKeys, hold, Record.carries_iff, hc]
    simp
  have hkey := (hnew key).mpr ⟨hr, hfirst⟩
  refine ⟨{ c with keys := newKeys seen c },
    (report (seen ++ newKeys seen c) (after.filterMap Record.carrier?)).1, ?_,
    ⟨by rw [hmodel], hnew, fun k => mem_warnings⟩, hkey, fun x hx hxkey => ?_⟩
  · rw [warnings, List.filterMap_append, List.filterMap_cons_some hc, report_append, ← hseen,
      report, if_neg (List.ne_nil_of_mem hkey), warnings]
  · rcases List.mem_append.mp hx with hx | hx
    · obtain ⟨y, hy, hykey⟩ := mem_warnings.mp ⟨x, hx, hxkey⟩
      exact hfirst y hy hykey
    · obtain ⟨hfresh, -⟩ := mem_reports.mp ⟨x, hx, hxkey⟩
      exact hfresh (List.mem_append_right seen hkey)

theorem Record.extras_sorted (r : Record) : r.extras.Pairwise (· ≤ ·) := by
  have htrans (a b c : String) (hab : decide (a ≤ b) = true) (hbc : decide (b ≤ c) = true) :
      decide (a ≤ c) = true := by
    simp only [decide_eq_true_eq] at hab hbc ⊢
    exact String.le_trans hab hbc
  have htotal (a b : String) : (decide (a ≤ b) || decide (b ≤ a)) = true := by
    simpa using String.le_total a b
  refine (List.pairwise_mergeSort htrans htotal _).imp ?_
  intro a b hab
  exact of_decide_eq_true hab

theorem Record.extras_nodup {r : Record} (h : (r.members.map Prod.fst).Nodup) :
    r.extras.Nodup :=
  (List.mergeSort_perm _ _).nodup_iff.mpr (h.filter _)

theorem entryRecords_distinct {model : Model} {ms : Members} (hms : (Value.object ms).Distinct)
    (name : String) :
    ∀ r ∈ entryRecords model (ms.lookup name), (r.members.map Prod.fst).Nodup := by
  intro r hr
  unfold entryRecords at hr
  split at hr
  next items hitems =>
    obtain ⟨v, hv, hentry⟩ := List.mem_filterMap.mp hr
    obtain ⟨ns, ks, hsplit, -⟩ := List.lookup_eq_some_iff.mp hitems
    cases hms with
    | object names values =>
      have harray : (Value.array items).Distinct := values (name, .array items) (by simp [hsplit])
      cases harray with
      | array hvalues =>
        have hdistinct := hvalues v hv
        cases v with
        | object members =>
          cases hentry
          cases hdistinct with
          | object hnames _ => exact hnames
        | _ => cases hentry
  next => cases hr

theorem records_distinct {v : Value} (h : v.Distinct) :
    ∀ r ∈ records v, (r.members.map Prod.fst).Nodup := by
  intro r hr
  cases v with
  | object ms =>
    simp only [records, List.mem_append, List.mem_singleton] at hr
    rcases hr with ((hr | hr) | hr) | rfl
    · exact entryRecords_distinct h _ r hr
    · exact entryRecords_distinct h _ r hr
    · exact entryRecords_distinct h _ r hr
    · cases h with
      | object names _ => exact names
  | _ => cases hr

theorem Raw.records_distinct {raw : Raw} {r : Record} (h : r ∈ raw.records) :
    (r.members.map Prod.fst).Nodup := by
  obtain ⟨v, hv, hr⟩ := List.mem_flatMap.mp h
  have hvalue := Option.mem_toList.mp hv
  refine Payload.records_distinct ?_ r hr
  cases raw with
  | text s => exact Json.read?_distinct hvalue
  | bytes b => exact Json.ofBytes?_distinct hvalue

/-- In all documents that are read one after the other each key is reported at most once, and it is
when a right record carries it, be the rest of the document right or wrong. The warning is that of
the first such record, entries before their document. Each warning has keys, in their order and
none of them twice. -/
theorem each_key_reported_once (raws : List Raw) :
    (∀ key, (∃ r ∈ raws.flatMap Raw.records, r.Carries key) →
      ∃ before r after earlier w later, raws.flatMap Raw.records = before ++ r :: after ∧
        r.Carries key ∧ (∀ x ∈ before, ¬ x.Carries key) ∧
        log [] raws = earlier ++ w :: later ∧ WarnsFor before r earlier w ∧ key ∈ w.keys ∧
        ∀ x ∈ earlier ++ later, key ∉ x.keys) ∧
    (∀ key, (∀ r ∈ raws.flatMap Raw.records, ¬ r.Carries key) → ∀ w ∈ log [] raws, key ∉ w.keys) ∧
    ∀ w ∈ log [] raws, w.keys ≠ [] ∧ w.keys.Pairwise (· ≤ ·) ∧ w.keys.Nodup := by
  have hlog : log [] raws = warnings (raws.flatMap Raw.records) := log_eq [] raws
  rw [hlog]
  refine ⟨fun key hkey => ?_, fun key hnone w hw hkey => ?_, fun w hw => ?_⟩
  · obtain ⟨r, before, after, hrecords, hr, hfirst⟩ := exists_firstOf.mpr hkey
    obtain ⟨w, later, hwarnings, hfor, hmem, hothers⟩ := warnings_first after hr hfirst
    rw [hrecords]
    exact ⟨before, r, after, warnings before, w, later, rfl, hr, hfirst, hwarnings, hfor, hmem,
      hothers⟩
  · obtain ⟨r, hr, hcarries⟩ := mem_warnings.mp ⟨w, hw, hkey⟩
    exact hnone r hr hcarries
  · obtain ⟨hsome, c, hc, hkeys⟩ := reports_new hw
    obtain ⟨r, hr, hcarrier⟩ := List.mem_filterMap.mp hc
    obtain ⟨-, -, rfl⟩ := Record.carrier?_eq_some.mp hcarrier
    obtain ⟨raw, -, hraw⟩ := List.mem_flatMap.mp hr
    exact ⟨hsome, r.extras_sorted.sublist hkeys,
      (Record.extras_nodup (Raw.records_distinct hraw)).sublist hkeys⟩

/-- A source of a document that is wrong elsewhere reports its key, and a later document reports
only what is new. -/
theorem wrong_document_reports_once :
    let raws : List Raw :=
      [.text "\x7b\"sources\": [\x7b\"a\": 2\x7d], \"images\": 3\x7d", .text "\x7b\"a\": 1\x7d",
        .text "\x7b\"c\": 0\x7d"]
    log [] raws = [⟨.source, ["a"]⟩, ⟨.document, ["c"]⟩] ∧
      (∃ r ∈ raws.flatMap Raw.records, r.Carries "a") ∧
      ∃ before r earlier w later, r.Carries "a" ∧ log [] raws = earlier ++ w :: later ∧
        WarnsFor before r earlier w ∧ "a" ∈ w.keys ∧ ∀ x ∈ earlier ++ later, "a" ∉ x.keys := by
  intro raws
  have hlog : log [] raws = [⟨.source, ["a"]⟩, ⟨.document, ["c"]⟩] := by decide +kernel
  have hcarried : ∃ r ∈ raws.flatMap Raw.records, r.Carries "a" := by
    rw [← mem_warnings, warnings, ← log_eq, hlog]
    exact ⟨⟨.source, ["a"]⟩, by decide, by decide⟩
  obtain ⟨honce, -, -⟩ := each_key_reported_once raws
  obtain ⟨before, r, -, earlier, w, later, -, hr, -, hw, hfor, hkey, hothers⟩ :=
    honce "a" hcarried
  exact ⟨hlog, hcarried, before, r, earlier, w, later, hr, hw, hfor, hkey, hothers⟩

end GalleryCatalog.Payload
