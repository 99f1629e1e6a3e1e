import GalleryCatalog.Proofs.TagSpelling

/-!
# Members of no known meaning

Documents are alike when they differ only in members that no record models. The forms of entries
read members of known names, and so do their violations, so alike documents have the same outcome
and give the same metadata. The page of an image is the one member with two names. Which of them is
used shows in the place of a violation, and in nothing else.
-/

set_option autoImplicit false

namespace GalleryCatalog.Payload

open Json (Value Members)
open Check (inside)

/-! ## Alike documents -/

section Alike

/-- Objects with the same members under some names, whatever else they have. -/
def SameUnder (names : List String) (ms ns : Members) : Prop :=
  ∀ name ∈ names, ms.lookup name = ns.lookup name

/-- The second name of the page counts only where the first is absent. -/
def SameImage (ms ns : Members) : Prop :=
  SameUnder ["filename", "pageNumber", "width", "height"] ms ns ∧
    (ms.lookup "pageNumber" = none → SameUnder ["page_number"] ms ns)

/-- The same value twice, or two objects that are related. -/
inductive AlikeEntry (same : Members → Members → Prop) : Value → Value → Prop
  | refl (v : Value) : AlikeEntry same v v
  | objects {ms ns : Members} (h : same ms ns) : AlikeEntry same (.object ms) (.object ns)

/-- The same member twice, or two lists whose entries are related one by one. -/
inductive AlikeEntries (same : Members → Members → Prop) : Option Value → Option Value → Prop
  | refl (o : Option Value) : AlikeEntries same o o
  | arrays {vs ws : List Value} (h : List.Forall₂ (AlikeEntry same) vs ws) :
      AlikeEntries same (some (.array vs)) (some (.array ws))

structure SameCollections (ms ns : Members) : Prop where
  sources : AlikeEntries (SameUnder sourceKeys) (ms.lookup "sources") (ns.lookup "sources")
  images : AlikeEntries SameImage (ms.lookup "images") (ns.lookup "images")
  tags : AlikeEntries (SameUnder tagKeys) (ms.lookup "tags") (ns.lookup "tags")

/-- Documents that differ in members of no known meaning only, of their own or of entries. -/
def Alike : Value → Value → Prop :=
  AlikeEntry SameCollections

theorem lookup_filter_of_mem {names : List String} {name : String} (h : name ∈ names)
    (ms : Members) : (ms.filter fun m => names.contains m.1).lookup name = ms.lookup name := by
  induction ms with
  | nil => rfl
  | cons m ms ih =>
    obtain ⟨key, v⟩ := m
    rw [List.filter_cons]
    by_cases hkey : name = key
    · have hknown : names.contains key = true := List.contains_iff_mem.mpr (hkey ▸ h)
      rw [if_pos hknown]
      simp [hkey]
    · have hne : (name == key) = false := beq_eq_false_iff_ne.mpr hkey
      split <;> simp only [List.lookup_cons, hne, ih]

/-- Adding, removing, moving and changing members of other names keeps all under the given ones. -/
theorem sameUnder_of_filter {names : List String} {ms ns : Members}
    (h : (ms.filter fun m => names.contains m.1) = ns.filter fun m => names.contains m.1) :
    SameUnder names ms ns := by
  intro name hname
  rw [← lookup_filter_of_mem hname ms, h, lookup_filter_of_mem hname ns]

end Alike

/-! ## Entries -/

section Entries

variable {ms ns : Members} {v w : Value}

/-- What a check gives is settled by the form that it decides and its violations. -/
theorem Check.Decides.outcome_eq {α : Type} {x y : Check α} {form : α → Prop}
    (hx : x.Decides form) (hy : y.Decides form) (h : x.violations = y.violations) :
    x.outcome = y.outcome := by
  cases hxo : x.outcome with
  | ok a => exact ((hy.ok_iff a).mpr ((hx.ok_iff a).mp hxo)).symm
  | error vs =>
    cases hyo : y.outcome with
    | ok b =>
      rw [(hx.ok_iff b).mpr ((hy.ok_iff b).mp hyo)] at hxo
      cases hxo
    | error us =>
      rw [← Check.violations_of_error hxo, ← Check.violations_of_error hyo, h]

theorem isSource_alike (h : AlikeEntry (SameUnder sourceKeys) v w) : IsSource v = IsSource w := by
  cases h with
  | refl => rfl
  | objects h =>
    have hname := h "name" (by simp [sourceKeys])
    have hurl := h "url" (by simp [sourceKeys])
    funext e
    simp [IsSource, hname, hurl]

theorem sourceViolations_alike (h : AlikeEntry (SameUnder sourceKeys) v w) :
    sourceViolations v = sourceViolations w := by
  cases h with
  | refl => rfl
  | objects h =>
    have hname := h "name" (by simp [sourceKeys])
    have hurl := h "url" (by simp [sourceKeys])
    simp [sourceViolations, hname, hurl]

theorem isTag_alike (h : AlikeEntry (SameUnder tagKeys) v w) : IsTag v = IsTag w := by
  have hobjects {ms ns : Members} (h : SameUnder tagKeys ms ns) {e : TagEntry} :
      IsTag (.object ms) e → IsTag (.object ns) e := by
    have hname := h "name" (by simp [tagKeys])
    have hspace := h "namespace" (by simp [tagKeys])
    rintro ⟨⟩
    exact .parts (hspace ▸ ‹_›) (hname ▸ ‹_›)
  cases h with
  | refl => rfl
  | objects h =>
    funext e
    exact propext ⟨hobjects h, hobjects fun name hname => (h name hname).symm⟩

theorem tagViolations_alike (h : AlikeEntry (SameUnder tagKeys) v w) :
    tagViolations v = tagViolations w := by
  cases h with
  | refl => rfl
  | objects h =>
    have hname := h "name" (by simp [tagKeys])
    have hspace := h "namespace" (by simp [tagKeys])
    simp [tagViolations, hname, hspace]

/-- Images whose members are the same but for the name under which the page is given. -/
def SamePage (ms ns : Members) : Prop :=
  SameUnder ["filename", "width", "height"] ms ns ∧ pageMember ms = pageMember ns

theorem SameImage.samePage (h : SameImage ms ns) : SamePage ms ns := by
  obtain ⟨hsame, hsecond⟩ := h
  have hfirst := hsame "pageNumber" (by simp)
  refine ⟨fun name hname => hsame name ?_, ?_⟩
  · simp only [List.mem_cons, List.not_mem_nil, or_false] at hname ⊢
    rcases hname with rfl | rfl | rfl <;> simp
  · unfold pageMember
    rw [← hfirst]
    cases hpage : ms.lookup "pageNumber" with
    | some page => rfl
    | none => rw [hsecond hpage "page_number" (by simp)]

theorem SameImage.pageKey_eq (h : SameImage ms ns) : pageKey ms = pageKey ns := by
  obtain ⟨hsame, hsecond⟩ := h
  unfold pageKey
  rw [← hsame "pageNumber" (by simp)]
  cases hpage : ms.lookup "pageNumber" with
  | some page => simp
  | none => rw [hsecond hpage "page_number" (by simp)]

theorem isImage_samePage (h : AlikeEntry SamePage v w) : IsImage v = IsImage w := by
  cases h with
  | refl => rfl
  | objects h =>
    obtain ⟨hsame, hpage⟩ := h
    have hfile := hsame "filename" (by simp)
    have hwidth := hsame "width" (by simp)
    have hheight := hsame "height" (by simp)
    funext e
    simp [IsImage, hfile, hpage, hwidth, hheight]

theorem AlikeEntry.mono {same same' : Members → Members → Prop}
    (hsame : ∀ {ms ns}, same ms ns → same' ms ns) (h : AlikeEntry same v w) :
    AlikeEntry same' v w := by
  cases h with
  | refl => exact .refl _
  | objects h => exact .objects (hsame h)

theorem imageViolations_alike (h : AlikeEntry SameImage v w) :
    imageViolations v = imageViolations w := by
  cases h with
  | refl => rfl
  | objects h =>
    obtain ⟨hsame, hpage⟩ := h.samePage
    have hfile := hsame "filename" (by simp)
    have hwidth := hsame "width" (by simp)
    have hheight := hsame "height" (by simp)
    simp [imageViolations, hfile, hpage, hwidth, hheight, h.pageKey_eq]

end Entries

/-! ## Collections -/

section Collections

variable {α : Type} {same : Members → Members → Prop} {form : Value → α → Prop}
  {o o' : Option Value}

theorem forall₂_alike {vs ws : List Value} (h : List.Forall₂ (AlikeEntry same) vs ws)
    (hform : ∀ {v w}, AlikeEntry same v w → form v = form w) :
    List.Forall₂ form vs = List.Forall₂ form ws := by
  induction h with
  | nil => rfl
  | cons hentry _ ih =>
    funext as
    rw [List.forall₂_cons_left_iff, List.forall₂_cons_left_iff, hform hentry, ih]

theorem maybe_alike (h : AlikeEntries same o o')
    (hform : ∀ {v w}, AlikeEntry same v w → form v = form w) :
    Maybe (IsList form) o = Maybe (IsList form) o' := by
  have hlist (items : List Value) (as : List α) :
      IsList form (.array items) as ↔ List.Forall₂ form items as := by
    simp [IsList]
  cases h with
  | refl => rfl
  | @arrays vs ws h =>
    have hsame := forall₂_alike h hform
    funext x
    refine propext ⟨?_, ?_⟩
    · rintro (_ | _ | hgiven)
      exact .given ((hlist ws _).mpr (hsame ▸ (hlist vs _).mp hgiven))
    · rintro (_ | _ | hgiven)
      exact .given ((hlist vs _).mpr (hsame ▸ (hlist ws _).mp hgiven))

/-- Violations of entries one by one, each at its place, as a function of those by themselves. -/
theorem entryViolations_eq (name : String) (entry : Value → List Violation)
    (items : List Value) :
    collectionViolations name entry (some (.array items)) =
      (items.map entry).zipIdx.flatMap fun p => inside (.key name) (inside (.index p.2) p.1) := by
  rw [List.zipIdx_map, List.flatMap_map]
  simp only [collectionViolations, inside, List.map_map]
  rfl

theorem collectionViolations_alike (h : AlikeEntries same o o') (name : String)
    {entry : Value → List Violation} (hentry : ∀ {v w}, AlikeEntry same v w → entry v = entry w) :
    collectionViolations name entry o = collectionViolations name entry o' := by
  cases h with
  | refl => rfl
  | @arrays vs ws h =>
    have hmap : vs.map entry = ws.map entry := by
      induction h with
      | nil => rfl
      | cons halike _ ih => rw [List.map_cons, List.map_cons, hentry halike, ih]
    rw [entryViolations_eq, entryViolations_eq, hmap]

end Collections

/-! ## Documents -/

section Documents

variable {v w : Value}

theorem isDocument_alike (h : Alike v w) : IsDocument v = IsDocument w := by
  cases h with
  | refl => rfl
  | objects h =>
    have hsources := maybe_alike h.sources isSource_alike
    have himages := maybe_alike h.images fun h =>
      isImage_samePage (h.mono SameImage.samePage)
    have htags := maybe_alike h.tags isTag_alike
    funext d
    simp [IsDocument, hsources, himages, htags]

theorem documentViolations_alike (h : Alike v w) :
    (document v).violations = (document w).violations := by
  cases h with
  | refl => rfl
  | objects h =>
    rw [document_violations, document_violations, objectViolations, objectViolations,
      collectionViolations_alike h.sources "sources" sourceViolations_alike,
      collectionViolations_alike h.images "images" imageViolations_alike,
      collectionViolations_alike h.tags "tags" tagViolations_alike]

theorem parse_alike (h : Alike v w) (reported reported' : List String) :
    (parse reported (some v)).outcome = (parse reported' (some w)).outcome := by
  have hdecides : (document w).Decides (IsDocument v) :=
    isDocument_alike h ▸ document_decides w
  have hsame := (document_decides v).outcome_eq hdecides (documentViolations_alike h)
  simp only [parse, accepted, hsame]

/-- The entry with its page given under the first name. -/
def pageRenamed (entry : Members) : Members :=
  entry.map fun m => if m.1 = "page_number" then ("pageNumber", m.2) else m

theorem lookup_pageRenamed {name : String} (hfirst : name ≠ "pageNumber")
    (hsecond : name ≠ "page_number") (entry : Members) :
    (pageRenamed entry).lookup name = entry.lookup name := by
  induction entry with
  | nil => rfl
  | cons m entry ih =>
    obtain ⟨key, v⟩ := m
    unfold pageRenamed at ih ⊢
    by_cases hkey : key = "page_number"
    · simp [List.lookup_cons, hkey, beq_eq_false_iff_ne.mpr hfirst,
        beq_eq_false_iff_ne.mpr hsecond, ih]
    · simp [List.lookup_cons, hkey, ih]

theorem lookup_pageRenamed_first {entry : Members} (h : entry.lookup "pageNumber" = none) :
    (pageRenamed entry).lookup "pageNumber" = entry.lookup "page_number" := by
  induction entry with
  | nil => rfl
  | cons m entry ih =>
    obtain ⟨key, v⟩ := m
    unfold pageRenamed at ih ⊢
    by_cases hkey : key = "page_number"
    · simp [hkey]
    · by_cases hfirst : key = "pageNumber"
      · simp [hfirst] at h
      · have hne : ("pageNumber" == key) = false := beq_eq_false_iff_ne.mpr (Ne.symm hfirst)
        have hne' : ("page_number" == key) = false := beq_eq_false_iff_ne.mpr (Ne.symm hkey)
        simp only [List.lookup_cons, hne] at h
        simp [List.lookup_cons, hkey, hne, hne', ih h]

theorem samePage_pageRenamed {entry : Members} {page : Value}
    (hfirst : entry.lookup "pageNumber" = none)
    (hsecond : entry.lookup "page_number" = some page) : SamePage entry (pageRenamed entry) := by
  refine ⟨fun name hname => (lookup_pageRenamed ?_ ?_ entry).symm, ?_⟩
  · rintro rfl
    simp at hname
  · rintro rfl
    simp at hname
  · rw [pageMember, pageMember, hfirst, lookup_pageRenamed_first hfirst, hsecond]
    rfl

/-- The document whose list of images has an object between other entries. -/
def withImage (ms : Members) (before after : List Value) (entry : Members) : Value :=
  .object (Json.put "images" (.array (before ++ .object entry :: after)) ms)

theorem isDocument_samePage {entry entry' : Members} (h : SamePage entry entry') (ms : Members)
    (before after : List Value) :
    IsDocument (withImage ms before after entry) =
      IsDocument (withImage ms before after entry') := by
  have hrefl (items : List Value) : List.Forall₂ (AlikeEntry SamePage) items items :=
    List.forall₂_same.mpr fun v _ => .refl v
  have himages := maybe_alike (.arrays (List.rel_append (hrefl before)
    (.cons (.objects h) (hrefl after)))) isImage_samePage
  funext d
  simp [IsDocument, withImage, Json.lookup_put, himages]

/-- Documents that differ only in members of no known meaning are both accepted, or both refused
with the same violations, and give the same metadata or the same failure. An image whose page is
given under the second name only may give it under the first: the document is accepted as before
and gives the same metadata. -/
theorem unmodeled_members_ignored (reported reported' : List String) :
    (∀ v w, Alike v w →
      (parse reported (some v)).outcome = (parse reported' (some w)).outcome ∧
      (parse reported (some v)).metadata.outcome = (parse reported' (some w)).metadata.outcome) ∧
    ∀ (ms : Members) (before after : List Value) (entry : Members) (page : Value),
      entry.lookup "pageNumber" = none → entry.lookup "page_number" = some page →
      let old := withImage ms before after entry
      let new := withImage ms before after (pageRenamed entry)
      (∀ d, (parse reported (some old)).outcome = .ok d ↔
        (parse reported' (some new)).outcome = .ok d) ∧
      ∀ m, (parse reported (some old)).metadata.outcome = .ok m ↔
        (parse reported' (some new)).metadata.outcome = .ok m := by
  constructor
  · intro v w halike
    have hsame := parse_alike halike reported reported'
    refine ⟨hsame, ?_⟩
    simp only [Reading.metadata, hsame]
  · intro ms before after entry page hfirst hsecond old new
    have hform : IsDocument old = IsDocument new :=
      isDocument_samePage (samePage_pageRenamed hfirst hsecond) ms before after
    refine ⟨fun d => ?_, fun m => ?_⟩
    · rw [parse_eq_ok, parse_eq_ok, hform]
    · rw [metadata_outcome, metadata_outcome, givesMetadata_iff, givesMetadata_iff, hform]

/-- Members of no known meaning come and go in the document, in a source, and in an image beside the
second name of the page. Then the page gets its first name. -/
theorem unmodeled_members_come_and_go :
    let image : Members := [("size", .array []), ("page_number", .integer 3),
      ("filename", .text "3.png")]
    let old : Value := .object [
      ("sources", .array [.object [("name", .text "A"), ("rating", .integer 5)]]),
      ("images", .array [.object [("page_number", .integer 3), ("filename", .text "3.png")]])]
    let rest : Members := [("uploader", .null),
      ("sources", .array [.object [("name", .text "A")]])]
    let m : Metadata :=
      { sources := some [⟨some "A", none⟩], images := some [⟨"3.png", 3, none, none⟩] }
    Alike old (withImage rest [] [] image) ∧ (parse [] (some old)).metadata.outcome = .ok m ∧
      image.lookup "pageNumber" = none ∧ image.lookup "page_number" = some (.integer 3) ∧
      (parse [] (some (withImage rest [] [] (pageRenamed image)))).metadata.outcome = .ok m := by
  intro image old rest m
  obtain ⟨hsame, hrenamed⟩ := unmodeled_members_ignored [] []
  have hsource : AlikeEntry (SameUnder sourceKeys)
      (.object [("name", .text "A"), ("rating", .integer 5)]) (.object [("name", .text "A")]) :=
    .objects (sameUnder_of_filter (by rfl))
  have himage : AlikeEntry SameImage
      (.object [("page_number", .integer 3), ("filename", .text "3.png")]) (.object image) :=
    .objects ⟨sameUnder_of_filter (by rfl), fun _ => sameUnder_of_filter (by rfl)⟩
  have halike : Alike old (withImage rest [] [] image) :=
    .objects ⟨.arrays (.cons hsource .nil), .arrays (.cons himage .nil), .refl none⟩
  have hread : (parse [] (some old)).metadata.outcome = .ok m := by decide +kernel
  refine ⟨halike, hread, rfl, rfl, ?_⟩
  rw [← (hrenamed rest [] [] image (.integer 3) rfl rfl).2 m, ← (hsame _ _ halike).2, hread]

end Documents

end GalleryCatalog.Payload
