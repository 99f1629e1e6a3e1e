import Mathlib.Data.List.DropRight
import GalleryCatalog.Proofs.Acceptance

/-!
# Spellings of tags

A tag is written as one text or as an object. A text is cut at its first colon and both sides
are trimmed, so it is read back from what the tag it gives is composed to, and the name is never
blank. The name of an object is only looked at before it is trimmed. So the two spellings agree
for all names but those that are blank without being empty, which an object may have.
-/

set_option autoImplicit false

namespace GalleryCatalog

/-! ## Trimming -/

namespace Text

section Ends

variable {p : Char → Bool} {cs : List Char}

theorem trimEnds_eq_rdropWhile (p : Char → Bool) (cs : List Char) :
    trimEnds p cs = (cs.dropWhile p).rdropWhile p := rfl

theorem trimEnds_sublist (p : Char → Bool) (cs : List Char) : (trimEnds p cs).Sublist cs :=
  (List.rdropWhile_prefix p (cs.dropWhile p)).sublist.trans (List.dropWhile_sublist p)

theorem trimEnds_eq_nil : trimEnds p cs = [] ↔ ∀ c ∈ cs, p c = true := by
  rw [trimEnds_eq_rdropWhile, List.rdropWhile_eq_nil_iff, ← List.dropWhile_eq_nil_iff,
    ← List.dropWhile_eq_nil_iff, List.dropWhile_idempotent]

/-- What trimming leaves begins and ends with characters that stay. -/
theorem trimEnds_trimEnds (p : Char → Bool) (cs : List Char) :
    trimEnds p (trimEnds p cs) = trimEnds p cs := by
  have hfront : (trimEnds p cs).dropWhile p = trimEnds p cs := by
    rw [List.dropWhile_eq_self_iff]
    intro hlength
    have hstart : trimEnds p cs <+: cs.dropWhile p := List.rdropWhile_prefix p _
    rw [hstart.getElem hlength]
    exact List.dropWhile_eq_self_iff.mp (List.dropWhile_idempotent p cs) _
  rw [trimEnds_eq_rdropWhile p (trimEnds p cs), hfront, trimEnds_eq_rdropWhile,
    List.rdropWhile_idempotent]

end Ends

theorem trim_trim (s : String) : trim (trim s) = trim s := by
  rw [trim, trim, String.toList_ofList, trimEnds_trimEnds]

theorem trim_empty : trim "" = "" := rfl

theorem mem_trim {s : String} {c : Char} (h : c ∈ (trim s).toList) : c ∈ s.toList := by
  rw [trim, String.toList_ofList] at h
  exact (trimEnds_sublist isBlank s.toList).subset h

/-- What stands after the first colon, or all of a text without one. -/
def afterColon (s : String) : String :=
  if ':' ∈ s.toList then String.ofList (s.toList.dropWhile (· ≠ ':')).tail else s

theorem afterColon_bare {s : String} (h : ':' ∉ s.toList) : afterColon s = s :=
  if_neg h

theorem afterColon_colon {space : String} (h : ':' ∉ space.toList) (name : String) :
    afterColon (space ++ ":" ++ name) = name := by
  have hlist : (space ++ ":" ++ name).toList = space.toList ++ ':' :: name.toList := by simp
  have hspace : ∀ c ∈ space.toList, decide (c ≠ ':') = true := by
    intro c hc
    have hne : c ≠ ':' := fun hcolon => h (hcolon ▸ hc)
    simpa using hne
  rw [afterColon, hlist, if_pos (by simp), List.dropWhile_append_of_pos hspace]
  simp

end Text

open Text (trim)

/-! ## Tags as texts -/

/-- A tag as a text may give it. Its parts are trimmed, the name is not empty, and only the name
may have colons. -/
structure Tag.Plain (t : Tag) : Prop where
  space_trimmed : trim t.space = t.space
  space_colon : ':' ∉ t.space.toList
  name_trimmed : trim t.name = t.name
  named : t.name ≠ ""

namespace Payload

open Json (Value Members)

theorem trim_eq_empty_iff {s : String} :
    trim s = "" ↔ ∀ c ∈ s.toList, Text.isBlank c = true :=
  trim_eq_empty.trans Text.trimEnds_eq_nil

/-- A text has no name when what stands after its first colon is blank. -/
theorem composite_eq_error {s : String} {f : Failure} :
    (TagEntry.composite s).tag = .error f ↔
      (∀ c ∈ (Text.afterColon s).toList, Text.isBlank c = true) ∧ f = .namelessTag s := by
  rw [← trim_eq_empty_iff]
  rcases colon_cases s with hbare | ⟨space, name, rfl, hspace⟩
  · rw [composite_tag (splitTag_bare hbare), Text.afterColon_bare hbare]
    split_ifs with hname <;> simp [hname, eq_comm]
  · rw [composite_tag (splitTag_colon hspace name), Text.afterColon_colon hspace]
    split_ifs with hname <;> simp [hname, eq_comm]

theorem composite_plain {s : String} {t : Tag} (h : (TagEntry.composite s).tag = .ok t) :
    t.Plain := by
  obtain ⟨hname, ⟨-, rfl⟩ | ⟨space, name, -, hspace, rfl⟩⟩ := tag_eq_ok.mp h
  · exact ⟨rfl, by simp, Text.trim_trim s, hname⟩
  · exact ⟨Text.trim_trim space, fun hcolon => hspace (Text.mem_trim hcolon),
      Text.trim_trim name, hname⟩

/-- A plain tag is read back from what it is composed to. -/
theorem tag_of_composite {t : Tag} (h : t.Plain) :
    (TagEntry.composite t.composite).tag = .ok t := by
  have hsplit : splitTag t.composite.toList = (t.space.toList, t.name.toList) :=
    splitTag_colon h.space_colon t.name
  rw [composite_tag hsplit, h.space_trimmed, h.name_trimmed, if_neg h.named]

/-- A text is refused exactly when what stands after its first colon is blank, and then it is
quoted. Else it gives a plain tag, and what this is composed to gives it again. Every plain tag is
read back from what it is composed to, so no two of them are composed to the same text. -/
theorem text_decodes_composite :
    (∀ s f, (TagEntry.composite s).tag = .error f ↔
      (∀ c ∈ (Text.afterColon s).toList, Text.isBlank c = true) ∧ f = .namelessTag s) ∧
    (∀ s t, (TagEntry.composite s).tag = .ok t →
      t.Plain ∧ (TagEntry.composite t.composite).tag = .ok t) ∧
    (∀ t : Tag, t.Plain → (TagEntry.composite t.composite).tag = .ok t) ∧
    ∀ t u : Tag, t.Plain → u.Plain → t.composite = u.composite → t = u := by
  refine ⟨fun s f => composite_eq_error, fun s t h => ?_, fun t => tag_of_composite,
    fun t u ht hu hsame => ?_⟩
  · have hplain := composite_plain h
    exact ⟨hplain, tag_of_composite hplain⟩
  · have hread := tag_of_composite ht
    rw [hsame, tag_of_composite hu] at hread
    exact (Except.ok.inj hread).symm

/-- The colon in the name stays, and the one before it is the first. -/
theorem name_with_colon_decodes :
    (TagEntry.composite "parody:re:zero").tag = .ok ⟨"parody", "re:zero"⟩ := by
  obtain ⟨-, -, hread, -⟩ := text_decodes_composite
  have hplain : (⟨"parody", "re:zero"⟩ : Tag).Plain :=
    ⟨by decide +kernel, by decide, by decide +kernel, by decide⟩
  have hcomposite : (⟨"parody", "re:zero"⟩ : Tag).composite = "parody:re:zero" := by
    decide +kernel
  exact hcomposite ▸ hread _ hplain

/-! ## Texts and objects -/

/-- What a document gives whose list of tags has an entry for a tag between others. -/
def GivesAround (ms : Members) (before after : List Value) (t : Tag) (m : Metadata) : Prop :=
  Maybe (IsList GivesSource) (ms.lookup "sources") m.sources ∧
    Maybe (IsList GivesImage) (ms.lookup "images") m.images ∧
    ∃ ts us, m.tags = some (ts ++ t :: us) ∧ List.Forall₂ GivesTag before ts ∧
      List.Forall₂ GivesTag after us

/-- The document whose list of tags has an entry between others. -/
def withEntry (ms : Members) (before after : List Value) (entry : Value) : Value :=
  .object (Json.put "tags" (.array (before ++ entry :: after)) ms)

theorem forall₂_middle {α β : Type} {R : α → β → Prop} {as : List α} {a : α} {bs : List α}
    {xs : List β} : List.Forall₂ R (as ++ a :: bs) xs ↔
      ∃ ys x zs, xs = ys ++ x :: zs ∧ List.Forall₂ R as ys ∧ R a x ∧ List.Forall₂ R bs zs := by
  induction as generalizing xs with
  | nil =>
    simp only [List.nil_append, List.forall₂_cons_left_iff, List.forall₂_nil_left_iff]
    constructor
    · rintro ⟨x, zs, hx, hzs, rfl⟩
      exact ⟨[], x, zs, rfl, rfl, hx, hzs⟩
    · rintro ⟨_, x, zs, rfl, rfl, hx, hzs⟩
      exact ⟨x, zs, hx, hzs, rfl⟩
  | cons c as ih =>
    simp only [List.cons_append, List.forall₂_cons_left_iff, ih]
    constructor
    · rintro ⟨y, _, hy, ⟨ys, x, zs, rfl, hys, hx, hzs⟩, rfl⟩
      exact ⟨y :: ys, x, zs, rfl, ⟨y, ys, hy, hys, rfl⟩, hx, hzs⟩
    · rintro ⟨_, x, zs, rfl, ⟨y, ys, hy, hys, rfl⟩, hx, hzs⟩
      exact ⟨y, ys ++ x :: zs, hy, ⟨ys, x, zs, rfl, hys, hx, hzs⟩, rfl⟩

theorem maybe_array {α : Type} {form : Value → α → Prop} {items : List Value}
    {x : Option (List α)} :
    Maybe (IsList form) (some (.array items)) x ↔ ∃ as, x = some as ∧ List.Forall₂ form items as := by
  constructor
  · rintro (_ | _ | ⟨items', hitems, has⟩)
    obtain rfl := Value.array.inj hitems
    exact ⟨_, rfl, has⟩
  · rintro ⟨as, rfl, has⟩
    exact .given ⟨items, rfl, has⟩

theorem withEntry_gives {ms : Members} {before after : List Value} {entry : Value}
    {m : Metadata} : GivesMetadata (withEntry ms before after entry) m ↔
      ∃ t, GivesTag entry t ∧ GivesAround ms before after t m := by
  have hobject : GivesMetadata (withEntry ms before after entry) m ↔
      Maybe (IsList GivesSource) (ms.lookup "sources") m.sources ∧
        Maybe (IsList GivesImage) (ms.lookup "images") m.images ∧
        Maybe (IsList GivesTag) (some (.array (before ++ entry :: after))) m.tags := by
    simp [GivesMetadata, withEntry, Json.lookup_put]
  rw [hobject, maybe_array]
  simp only [forall₂_middle, GivesAround]
  constructor
  · rintro ⟨hsources, himages, _, htags, ts, t, us, rfl, hts, ht, hus⟩
    exact ⟨t, ht, hsources, himages, ts, us, htags, hts, hus⟩
  · rintro ⟨t, ht, hsources, himages, ts, us, htags, hts, hus⟩
    exact ⟨hsources, himages, _, htags, ts, t, us, rfl, hts, ht, hus⟩

/-- A document is read with the metadata that it gives, or refused. -/
theorem metadata_outcome {reported : List String} {v : Value} {m : Metadata} :
    (parse reported (some v)).metadata.outcome = .ok m ↔ GivesMetadata v m := by
  have hform : ∀ d, IsDocument v d ↔ (parse reported (some v)).outcome = .ok d :=
    fun d => parse_eq_ok.symm
  simp only [givesMetadata_iff, hform, Reading.metadata]
  cases (parse reported (some v)).outcome <;> simp [Except.bind]

theorem givesTag_text {s : String} {t : Tag} :
    GivesTag (.text s) t ↔ (TagEntry.composite s).tag = .ok t := by
  rw [tag_eq_ok]
  constructor
  · rintro ⟨_, ⟨⟩, hnames⟩
    exact hnames
  · exact fun hnames => ⟨_, .composite s, hnames⟩

/-- Of the name of an object only that it is not empty is asked. -/
theorem givesTag_object {ms : Members} {t : Tag} : GivesTag (.object ms) t ↔
    ∃ space name, (ms.lookup "namespace" = none ∧ space = "" ∨
        ms.lookup "namespace" = some (.text space)) ∧
      ms.lookup "name" = some (.text name) ∧ name ≠ "" ∧ t = ⟨trim space, trim name⟩ := by
  constructor
  · rintro ⟨_, htag, hnames⟩
    cases htag with
    | parts hspace hname =>
      obtain ⟨v, hname, rfl, hne⟩ := hname
      exact ⟨_, _, hspace, hname, hne, hnames⟩
  · rintro ⟨space, name, hspace, hname, hne, rfl⟩
    exact ⟨.parts space name, .parts hspace ⟨_, hname, rfl, hne⟩, rfl⟩

/-- The two spellings of a tag ask different things of its name, and else give the same tag. -/
theorem givesTag_spelled {space : String} (hspace : ':' ∉ space.toList) (name : String) (t : Tag) :
    (GivesTag (.text (space ++ ":" ++ name)) t ↔
      trim name ≠ "" ∧ t = ⟨trim space, trim name⟩) ∧
    (GivesTag (.object [("namespace", .text space), ("name", .text name)]) t ↔
      name ≠ "" ∧ t = ⟨trim space, trim name⟩) := by
  constructor
  · rw [givesTag_text, composite_tag (splitTag_colon hspace name)]
    split_ifs with hname <;> simp [hname, eq_comm]
  · have hname : List.lookup "name" [("namespace", Value.text space), ("name", .text name)] =
        some (.text name) := rfl
    rw [givesTag_object]
    simp [hname]

/-- Only an object with a blank name gives a tag with an empty one. -/
theorem givesTag_nameless {entry : Value} {t : Tag} (h : GivesTag entry t) (hempty : t.name = "") :
    ∃ members n, entry = .object members ∧ members.lookup "name" = some (.text n) ∧ n ≠ "" ∧
      trim n = "" := by
  cases entry with
  | text s =>
    have hplain := composite_plain (givesTag_text.mp h)
    exact absurd hempty hplain.named
  | object members =>
    obtain ⟨_, n, -, hn, hne, rfl⟩ := givesTag_object.mp h
    exact ⟨members, n, rfl, hn, hne, hempty⟩
  | _ =>
    obtain ⟨_, ⟨⟩, -⟩ := h

/-- A document is read exactly when its entry gives a tag, and then this tag stands between the
others. -/
theorem reads_entry {reported : List String} {ms : Members} {before after : List Value}
    {entry : Value} {asked : Prop} {u : Tag} (hentry : ∀ t, GivesTag entry t ↔ asked ∧ t = u)
    {m : Metadata} :
    (parse reported (some (withEntry ms before after entry))).metadata.outcome = .ok m ↔
      asked ∧ GivesAround ms before after u m := by
  rw [metadata_outcome, withEntry_gives]
  simp only [hentry, and_assoc, exists_and_left, exists_eq_left]

/-- In any document let an entry for a tag be spelled as a text with a colon, or as the object of
its two sides. When the name is empty, or not blank, the two documents give the same metadata or
are both refused, and the tag given is that of the trimmed sides. When the name is blank without
being empty, the text is refused, and the object gives a tag with an empty name. No other entries
give one. -/
theorem spellings_differ_for_blank_names {space : String} (hspace : ':' ∉ space.toList)
    (name : String) (reported : List String) (ms : Members) (before after : List Value) :
    let text : Value := .text (space ++ ":" ++ name)
    let object : Value := .object [("namespace", .text space), ("name", .text name)]
    let read (entry : Value) : Except Failure Metadata :=
      (parse reported (some (withEntry ms before after entry))).metadata.outcome
    (name = "" ∨ trim name ≠ "" → ∀ m, (read text = .ok m ↔ read object = .ok m) ∧
      (read text = .ok m → GivesAround ms before after ⟨trim space, trim name⟩ m)) ∧
    (name ≠ "" → trim name = "" → ∀ m, read text ≠ .ok m ∧
      (read object = .ok m ↔ GivesAround ms before after ⟨trim space, ""⟩ m)) ∧
    ∀ entry t, GivesTag entry t → t.name = "" → ∃ members n, entry = .object members ∧
      members.lookup "name" = some (.text n) ∧ n ≠ "" ∧ trim n = "" := by
  intro text object read
  have htext : ∀ m, read text = .ok m ↔
      trim name ≠ "" ∧ GivesAround ms before after ⟨trim space, trim name⟩ m :=
    fun _ => reads_entry fun t => (givesTag_spelled hspace name t).1
  have hobject : ∀ m, read object = .ok m ↔
      name ≠ "" ∧ GivesAround ms before after ⟨trim space, trim name⟩ m :=
    fun _ => reads_entry fun t => (givesTag_spelled hspace name t).2
  refine ⟨fun hname m => ?_, fun hne hblank m => ?_, fun entry t => givesTag_nameless⟩
  · -- the two questions about the name have the same answer
    have hsame : trim name ≠ "" ↔ name ≠ "" := by
      rcases hname with rfl | hname
      · simp [Text.trim_empty]
      · exact iff_of_true hname fun hnil => hname (by rw [hnil, Text.trim_empty])
    exact ⟨by rw [htext, hobject, hsame], fun h => ((htext m).mp h).2⟩
  · refine ⟨fun h => ((htext m).mp h).1 hblank, ?_⟩
    rw [hobject, hblank]
    exact and_iff_right hne

theorem padded_name_spelled_twice :
    let text : Value := .text ("a" ++ ":" ++ " b")
    let object : Value := .object [("namespace", .text "a"), ("name", .text " b")]
    (parse [] (some (withEntry [] [] [] text))).metadata.outcome = .ok { tags := some [⟨"a", "b"⟩] } ∧
      (parse [] (some (withEntry [] [] [] object))).metadata.outcome =
        .ok { tags := some [⟨"a", "b"⟩] } := by
  have hread : (parse [] (some (withEntry [] [] []
      (.object [("namespace", .text "a"), ("name", .text " b")])))).metadata.outcome =
        .ok { tags := some [⟨"a", "b"⟩] } := by
    decide +kernel
  have hspace : ':' ∉ "a".toList := by decide
  obtain ⟨hagree, -, -⟩ := spellings_differ_for_blank_names hspace " b" [] [] [] []
  exact ⟨(hagree (.inr (by decide +kernel)) _).1.mpr hread, hread⟩

/-- A blank name is refused in a text, and in an object it becomes the empty name. -/
theorem blank_name_spelled_twice :
    (readText [] "\x7b\"tags\": [\"a: \"]\x7d").outcome = .error (.namelessTag "a: ") ∧
      (readText [] "\x7b\"tags\": [\x7b\"namespace\": \"a\", \"name\": \" \"\x7d]\x7d").outcome =
        .ok { tags := some [⟨"a", ""⟩] } :=
  ⟨by decide +kernel, by decide +kernel⟩

end Payload

end GalleryCatalog
