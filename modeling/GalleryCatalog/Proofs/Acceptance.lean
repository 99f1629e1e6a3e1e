import GalleryCatalog.Proofs.DocumentForm

/-!
# Accepted documents and what they give

A document is accepted exactly when it is an object in which each collection is absent, null or
a list of entries that are right by themselves. One that is an object and is refused has one
violation for each collection that is no list, and those of all entries of the others. An
accepted document gives metadata entry by entry, and leaves out what is absent or null.
-/

set_option autoImplicit false

namespace GalleryCatalog.Payload

open Json (Value Members)
open Check (inside)
open Text (trim)

/-! ## Lists of entries -/

section Entries

variable {α β : Type} {form : Value → α → Prop}

theorem exists_forall₂ {items : List Value} :
    (∃ as, List.Forall₂ form items as) ↔ ∀ v ∈ items, ∃ a, form v a := by
  induction items with
  | nil => simp
  | cons v items ih =>
    rw [List.forall_mem_cons, ← ih]
    constructor
    · rintro ⟨_, _ | ⟨ha, has⟩⟩
      exact ⟨⟨_, ha⟩, _, has⟩
    · rintro ⟨⟨a, ha⟩, as, has⟩
      exact ⟨a :: as, .cons ha has⟩

/-- Entries give what their readings stand for. -/
theorem forall₂_then {gives : α → β → Prop} {items : List Value} {bs : List β} :
    List.Forall₂ (fun v b => ∃ a, form v a ∧ gives a b) items bs ↔
      ∃ as, List.Forall₂ form items as ∧ List.Forall₂ gives as bs := by
  induction items generalizing bs with
  | nil =>
    constructor
    · rintro ⟨⟩
      exact ⟨[], .nil, .nil⟩
    · rintro ⟨_, ⟨⟩, ⟨⟩⟩
      exact .nil
  | cons v items ih =>
    constructor
    · rintro (_ | ⟨⟨a, hform, hgives⟩, hrest⟩)
      obtain ⟨as, has, hbs⟩ := ih.mp hrest
      exact ⟨a :: as, .cons hform has, .cons hgives hbs⟩
    · rintro ⟨_, _ | ⟨hform, has⟩, _ | ⟨hgives, hbs⟩⟩
      exact .cons ⟨_, hform, hgives⟩ (ih.mpr ⟨_, has, hbs⟩)

/-- A collection is absent, null, or a list of entries that are right by themselves. -/
def RightEntries (form : Value → α → Prop) (o : Option Value) : Prop :=
  o = none ∨ o = some .null ∨ ∃ items, o = some (.array items) ∧ ∀ v ∈ items, ∃ a, form v a

theorem rightEntries_iff {o : Option Value} :
    RightEntries form o ↔ ∃ x, Maybe (IsList form) o x := by
  constructor
  · rintro (rfl | rfl | ⟨items, rfl, hitems⟩)
    · exact ⟨none, .absent⟩
    · exact ⟨none, .null⟩
    · obtain ⟨as, has⟩ := exists_forall₂.mpr hitems
      exact ⟨some as, .given ⟨items, rfl, has⟩⟩
  · rintro ⟨_, _ | _ | ⟨items, rfl, has⟩⟩
    · exact .inl rfl
    · exact .inr (.inl rfl)
    · exact .inr (.inr ⟨items, rfl, exists_forall₂.mp ⟨_, has⟩⟩)

/-- A collection gives what its readings stand for, or nothing. -/
theorem maybe_then {gives : α → β → Prop} {o : Option Value} {y : Option (List β)} :
    Maybe (IsList fun v b => ∃ a, form v a ∧ gives a b) o y ↔
      ∃ x, Maybe (IsList form) o x ∧ Option.Rel (List.Forall₂ gives) x y := by
  constructor
  · rintro (_ | _ | ⟨items, rfl, hbs⟩)
    · exact ⟨none, .absent, .none⟩
    · exact ⟨none, .null, .none⟩
    · obtain ⟨as, has, hgives⟩ := forall₂_then.mp hbs
      exact ⟨some as, .given ⟨items, rfl, has⟩, .some hgives⟩
  · rintro ⟨_, _ | _ | ⟨items, rfl, has⟩, hgives⟩
    · cases hgives
      exact .absent
    · cases hgives
      exact .null
    · cases hgives with
      | some hgives => exact .given ⟨items, rfl, forall₂_then.mpr ⟨_, has, hgives⟩⟩

end Entries

/-! ## Violations of entries -/

section EntryViolations

/-- The fault of a member, at its place. -/
def faultAt (name : String) (fault : Option Fault) : List Violation :=
  fault.toList.map fun f => ⟨[.key name], f⟩

def textFault : Option Value → Option Fault
  | none => none
  | some .null => none
  | some (.text _) => none
  | some _ => some .notText

def nameFault : Option Value → Option Fault
  | none => some .missing
  | some (.text s) => if s = "" then some .emptyText else none
  | some _ => some .notText

def spaceFault : Option Value → Option Fault
  | none => none
  | some (.text _) => none
  | some _ => some .notText

def numberFault (kind : Int → Bool) (other : Fault) (v : Value) : Option Fault :=
  match integerOf v with
  | .ok n => if kind n then none else some other
  | .error f => some f

def pageFault : Option Value → Option Fault
  | none => some .missing
  | some v => numberFault (0 ≤ ·) .negative v

def sizeFault : Option Value → Option Fault
  | none => none
  | some .null => none
  | some v => numberFault (0 < ·) .notPositive v

def sourceViolations : Value → List Violation
  | .object ms =>
    faultAt "name" (textFault (ms.lookup "name")) ++ faultAt "url" (textFault (ms.lookup "url"))
  | _ => [⟨[], .notObject⟩]

def imageViolations : Value → List Violation
  | .object ms =>
    faultAt "filename" (nameFault (ms.lookup "filename")) ++
      faultAt (pageKey ms) (pageFault (pageMember ms)) ++
      faultAt "width" (sizeFault (ms.lookup "width")) ++
      faultAt "height" (sizeFault (ms.lookup "height"))
  | _ => [⟨[], .notObject⟩]

/-- An object that is no right tag is no text either. -/
def tagViolations : Value → List Violation
  | .text _ => []
  | .object ms =>
    match faultAt "name" (nameFault (ms.lookup "name")) ++
      faultAt "namespace" (spaceFault (ms.lookup "namespace")) with
    | [] => []
    | vs => inside (.key Model.tag.title) vs ++ [⟨[.key "str"], .notText⟩]
  | _ => [⟨[.key Model.tag.title], .notObject⟩, ⟨[.key "str"], .notText⟩]

variable (ms : Members) (name : String) (v : Value)

theorem integerThat_violations (holds : Int → Bool) (fault : Fault) :
    inside (.key name) (integerThat holds fault v).violations =
      faultAt name (numberFault holds fault v) := by
  unfold integerThat numberFault
  cases integerOf v with
  | error f => rfl
  | ok n =>
    dsimp only
    split_ifs <;> rfl

theorem optionalText_violations : (optional ms name none (nullable text)).violations =
    faultAt name (textFault (ms.lookup name)) := by
  unfold optional
  rcases ms.lookup name with _ | v
  · rfl
  · cases v <;> rfl

theorem requiredName_violations : (required ms name nonEmptyText).violations =
    faultAt name (nameFault (ms.lookup name)) := by
  unfold required
  rcases ms.lookup name with _ | v
  · rfl
  · cases v with
    | text s =>
      simp only [nonEmptyText, nameFault]
      split <;> rfl
    | _ => rfl

theorem optionalSize_violations : (optional ms name none (nullable dimension)).violations =
    faultAt name (sizeFault (ms.lookup name)) := by
  unfold optional
  rcases ms.lookup name with _ | v
  · rfl
  · cases v with
    | null => rfl
    | _ =>
      simp only [nullable, Check.violations_within, Check.violations_map]
      exact integerThat_violations ..

theorem source_violations : (source v).violations = sourceViolations v := by
  cases v with
  | object ms => simp [source, sourceViolations, optionalText_violations]
  | _ => rfl

theorem image_violations : (image v).violations = imageViolations v := by
  cases v with
  | object ms =>
    have hpage : (required ms (pageKey ms) pageNumber).violations =
        faultAt (pageKey ms) (pageFault (pageMember ms)) := by
      unfold required
      rw [lookup_pageKey]
      rcases pageMember ms with _ | v
      · rfl
      · exact (Check.violations_within ..).trans (integerThat_violations ..)
    simp [image, imageViolations, requiredName_violations, hpage, optionalSize_violations]
  | _ => rfl

theorem tagObject_violations : (tagObject (.object ms)).violations =
    faultAt "name" (nameFault (ms.lookup "name")) ++
      faultAt "namespace" (spaceFault (ms.lookup "namespace")) := by
  have hspace : (optional ms "namespace" "" text).violations =
      faultAt "namespace" (spaceFault (ms.lookup "namespace")) := by
    unfold optional
    rcases ms.lookup "namespace" with _ | v
    · rfl
    · cases v <;> rfl
  simp [tagObject, requiredName_violations, hspace]

theorem tag_violations : (tag v).violations = tagViolations v := by
  cases v with
  | object ms =>
    simp only [tag, tagViolations, ← tagObject_violations]
    cases h : (tagObject (.object ms)).outcome with
    | ok e => simp [Check.violations, h]
    | error vs =>
      have hsome : vs ≠ [] := fun hnil => (tagObject_decides _).reports (hnil ▸ h)
      simp only [Check.violations_map, Check.violations_both, Check.violations_within,
        Check.violations_of_error h]
      cases vs with
      | nil => exact absurd rfl hsome
      | cons v vs => rfl
  | _ => rfl

end EntryViolations

/-! ## Violations of collections -/

section Violations

/-- The violations of a collection: one if it is no list, and else those of its entries by
themselves, each at its place. -/
def collectionViolations (name : String) (entry : Value → List Violation) :
    Option Value → List Violation
  | none => []
  | some .null => []
  | some (.array items) => items.zipIdx.flatMap fun p =>
      (entry p.1).map fun x => { x with place := .key name :: .index p.2 :: x.place }
  | some _ => [⟨[.key name], .notArray⟩]

/-- The violations of an object that stands for a document. -/
def objectViolations (ms : Members) : List Violation :=
  collectionViolations "sources" sourceViolations (ms.lookup "sources") ++
    collectionViolations "images" imageViolations (ms.lookup "images") ++
    collectionViolations "tags" tagViolations (ms.lookup "tags")

theorem collection_violations {α : Type} {check : Value → Check α}
    {entry : Value → List Violation} (h : ∀ v, (check v).violations = entry v) (ms : Members)
    (name : String) : (optional ms name none (nullable (arrayOf check))).violations =
      collectionViolations name entry (ms.lookup name) := by
  obtain rfl : (fun v => (check v).violations) = entry := funext h
  unfold optional collectionViolations
  rcases ms.lookup name with _ | v
  · rfl
  · cases v with
    | array items =>
      simp only [nullable, arrayOf, Check.violations_within, Check.violations_map,
        Check.violations_all, List.flatMap_map, inside, List.map_flatMap, List.map_map]
      rfl
    | _ => rfl

theorem document_violations (ms : Members) :
    (document (.object ms)).violations = objectViolations ms := by
  simp [document, objectViolations, collection_violations source_violations,
    collection_violations image_violations, collection_violations tag_violations]

end Violations

/-! ## Metadata -/

section Metadata

/-- The tag that an entry stands for. A text with a colon is cut at its first one, and its name
must not be blank. -/
def Names : TagEntry → Tag → Prop
  | .parts space name, t => t = ⟨trim space, trim name⟩
  | .composite text, t => t.name ≠ "" ∧
      (':' ∉ text.toList ∧ t = ⟨"", trim text⟩ ∨
        ∃ space name, text = space ++ ":" ++ name ∧ ':' ∉ space.toList ∧
          t = ⟨trim space, trim name⟩)

theorem trim_eq_empty {s : String} :
    trim s = "" ↔ Text.trimEnds Text.isBlank s.toList = [] := by
  rw [← String.toList_inj, trim, String.toList_ofList]
  rfl

theorem splitTag_bare {text : String} (h : ':' ∉ text.toList) :
    splitTag text.toList = ("".toList, text.toList) := by
  rw [splitTag, Text.cutAt_of_not_mem h]
  rfl

theorem splitTag_colon {space : String} (h : ':' ∉ space.toList) (name : String) :
    splitTag (space ++ ":" ++ name).toList = (space.toList, name.toList) := by
  have hlist : (space ++ ":" ++ name).toList = space.toList ++ ':' :: name.toList := by simp
  rw [splitTag, hlist, Text.cutAt_append h]

theorem colon_cases (text : String) : ':' ∉ text.toList ∨
    ∃ space name, text = space ++ ":" ++ name ∧ ':' ∉ space.toList := by
  by_cases hcolon : ':' ∈ text.toList
  · obtain ⟨before, after, htext, hbefore⟩ := List.eq_append_cons_of_mem hcolon
    refine .inr ⟨String.ofList before, String.ofList after, ?_, by simpa⟩
    rw [← String.toList_inj, htext]
    simp
  · exact .inl hcolon

theorem composite_tag {text space name : String}
    (h : splitTag text.toList = (space.toList, name.toList)) :
    (TagEntry.composite text).tag =
      if trim name = "" then .error (.namelessTag text) else .ok ⟨trim space, trim name⟩ := by
  simp only [TagEntry.tag, h, trim_eq_empty, String.ofList_toList]

theorem tag_eq_ok {e : TagEntry} {t : Tag} : e.tag = .ok t ↔ Names e t := by
  cases e with
  | parts space name => simp [TagEntry.tag, Names, eq_comm]
  | composite text =>
    rcases colon_cases text with hbare | ⟨space, name, rfl, hspace⟩
    · rw [composite_tag (splitTag_bare hbare)]
      constructor
      · intro h
        split_ifs at h with hblank
        obtain rfl := Except.ok.inj h
        exact ⟨hblank, .inl ⟨hbare, rfl⟩⟩
      · rintro ⟨hname, ⟨-, rfl⟩ | ⟨space, name, rfl, -⟩⟩
        · exact if_neg hname
        · simp at hbare
    · rw [composite_tag (splitTag_colon hspace name)]
      constructor
      · intro h
        split_ifs at h with hblank
        obtain rfl := Except.ok.inj h
        exact ⟨hblank, .inr ⟨space, name, rfl, hspace, rfl⟩⟩
      · rintro ⟨hname, ⟨hbare, -⟩ | ⟨space', name', hsame, hspace', rfl⟩⟩
        · simp at hbare
        · have hsplit := splitTag_colon hspace' name'
          rw [← hsame, splitTag_colon hspace name, Prod.mk.injEq, String.toList_inj,
            String.toList_inj] at hsplit
          obtain ⟨rfl, rfl⟩ := hsplit
          exact if_neg hname

theorem mapM_eq_ok {α β ε : Type} {f : α → Except ε β} {as : List α} {bs : List β} :
    as.mapM f = .ok bs ↔ List.Forall₂ (fun a b => f a = .ok b) as bs := by
  induction as generalizing bs with
  | nil =>
    rw [List.forall₂_nil_left_iff, List.mapM_nil]
    exact ⟨fun h => (Except.ok.inj h).symm, fun h => h ▸ rfl⟩
  | cons a as ih =>
    rw [List.mapM_cons, List.forall₂_cons_left_iff]
    simp only [← ih]
    cases f a <;> cases as.mapM f <;> simp [bind, Except.bind, pure, Except.pure, eq_comm]

/-- What a list of tags gives, or a list that was left out. -/
theorem tagList_eq_ok {x : Option (List TagEntry)} {y : Option (List Tag)} :
    tagList x = .ok y ↔ Option.Rel (List.Forall₂ Names) x y := by
  cases x with
  | none => cases y <;> simp [tagList]
  | some es =>
    have hes : (es.mapM TagEntry.tag).map some = .ok y ↔
        ∃ ts, es.mapM TagEntry.tag = .ok ts ∧ some ts = y := by
      cases es.mapM TagEntry.tag <;> simp [Except.map]
    rw [tagList, hes]
    simp only [mapM_eq_ok, tag_eq_ok]
    constructor
    · rintro ⟨ts, hts, rfl⟩
      exact .some hts
    · intro h
      cases h with
      | some hts => exact ⟨_, hts, rfl⟩

def GivesSource (v : Value) (s : Source) : Prop :=
  IsSource v ⟨s.name, s.url⟩

def GivesImage (v : Value) (i : Image) : Prop :=
  IsImage v ⟨i.filename, i.page, i.width, i.height⟩

def GivesTag (v : Value) (t : Tag) : Prop :=
  ∃ e, IsTag v e ∧ Names e t

/-- The metadata that a document gives, entry by entry in their order. A collection that is
absent or null is left out. -/
def GivesMetadata (v : Value) (m : Metadata) : Prop :=
  ∃ ms, v = .object ms ∧ Maybe (IsList GivesSource) (ms.lookup "sources") m.sources ∧
    Maybe (IsList GivesImage) (ms.lookup "images") m.images ∧
    Maybe (IsList GivesTag) (ms.lookup "tags") m.tags

theorem givesSource_eq : GivesSource = fun v s => ∃ e, IsSource v e ∧ e.source = s := by
  funext v s
  refine propext ⟨fun h => ⟨_, h, rfl⟩, ?_⟩
  rintro ⟨e, h, rfl⟩
  exact h

theorem givesImage_eq : GivesImage = fun v i => ∃ e, IsImage v e ∧ e.image = i := by
  funext v i
  refine propext ⟨fun h => ⟨_, h, rfl⟩, ?_⟩
  rintro ⟨e, h, rfl⟩
  exact h

theorem rel_map {α β : Type} {f : α → β} {x : Option (List α)} {y : Option (List β)} :
    Option.Rel (List.Forall₂ fun a b => f a = b) x y ↔ x.map (List.map f) = y := by
  have hlists (as : List α) (bs : List β) :
      List.Forall₂ (fun a b => f a = b) as bs ↔ as.map f = bs := by
    rw [← List.forall₂_eq_eq_eq, List.forall₂_map_left_iff]
  cases x <;> cases y <;> simp [hlists]

theorem metadata_eq_ok {d : Document} {m : Metadata} : d.metadata = .ok m ↔
    d.sources.map (List.map SourceEntry.source) = m.sources ∧
      d.images.map (List.map ImageEntry.image) = m.images ∧ tagList d.tags = .ok m.tags := by
  unfold Document.metadata
  cases htags : tagList d.tags with
  | error f => simp [bind, Except.bind]
  | ok ts =>
    rcases m with ⟨sources, images, tags⟩
    simp [bind, Except.bind, pure, Except.pure]

/-- A document that is accepted gives the metadata that its entries give, or fails. -/
theorem givesMetadata_iff {v : Value} {m : Metadata} :
    GivesMetadata v m ↔ ∃ d, IsDocument v d ∧ d.metadata = .ok m := by
  have htag : GivesTag = fun v t => ∃ e, IsTag v e ∧ Names e t := rfl
  simp only [GivesMetadata, IsDocument, givesSource_eq, givesImage_eq, htag, maybe_then, rel_map,
    metadata_eq_ok, tagList_eq_ok]
  constructor
  · rintro ⟨ms, rfl, ⟨ss, hss, hs⟩, ⟨is, his, hi⟩, ts, hts, ht⟩
    exact ⟨⟨ss, is, ts⟩, ⟨ms, rfl, hss, his, hts⟩, hs, hi, ht⟩
  · rintro ⟨d, ⟨ms, rfl, hss, his, hts⟩, hs, hi, ht⟩
    exact ⟨ms, rfl, ⟨_, hss, hs⟩, ⟨_, his, hi⟩, _, hts, ht⟩

end Metadata

/-! ## Documents -/

theorem parse_eq_ok {reported : List String} {v : Value} {d : Document} :
    (parse reported (some v)).outcome = .ok d ↔ IsDocument v d := by
  rw [← (document_decides v).ok_iff]
  cases h : (document v).outcome <;> simp [parse, accepted, h, Except.mapError]

theorem parse_eq_error {reported : List String} {v : Value} {f : Failure}
    (h : (parse reported (some v)).outcome = .error f) :
    f = .invalid (document v).violations := by
  cases hv : (document v).outcome with
  | ok d => simp [parse, accepted, hv, Except.mapError] at h
  | error vs =>
    rw [Check.violations_of_error hv]
    simpa [parse, accepted, hv, Except.mapError, eq_comm] using h

theorem exists_document {v : Value} : (∃ d, IsDocument v d) ↔
    ∃ ms, v = .object ms ∧ RightEntries IsSource (ms.lookup "sources") ∧
      RightEntries IsImage (ms.lookup "images") ∧ RightEntries IsTag (ms.lookup "tags") := by
  simp only [IsDocument, rightEntries_iff]
  constructor
  · rintro ⟨d, ms, rfl, hsources, himages, htags⟩
    exact ⟨ms, rfl, ⟨_, hsources⟩, ⟨_, himages⟩, ⟨_, htags⟩⟩
  · rintro ⟨ms, rfl, ⟨ss, hsources⟩, ⟨is, himages⟩, ts, htags⟩
    exact ⟨⟨ss, is, ts⟩, ms, rfl, hsources, himages, htags⟩

/-- A document is accepted exactly when it is an object whose collections have right entries. An
object that is refused has exactly the violations of its collections, of which an entry has one
exactly when it is not right by itself. An accepted document has the metadata that its entries
give, and no other. -/
theorem parse_decides (reported : List String) (v : Value) :
    ((∃ d, (parse reported (some v)).outcome = .ok d) ↔
      ∃ ms, v = .object ms ∧ RightEntries IsSource (ms.lookup "sources") ∧
        RightEntries IsImage (ms.lookup "images") ∧ RightEntries IsTag (ms.lookup "tags")) ∧
    (∀ ms f, v = .object ms → (parse reported (some v)).outcome = .error f →
      f = .invalid (objectViolations ms)) ∧
    (∀ entry, (sourceViolations entry = [] ↔ ∃ e, IsSource entry e) ∧
      (imageViolations entry = [] ↔ ∃ e, IsImage entry e) ∧
      (tagViolations entry = [] ↔ ∃ e, IsTag entry e)) ∧
    ∀ d m, (parse reported (some v)).outcome = .ok d →
      (d.metadata = .ok m ↔ GivesMetadata v m) := by
  refine ⟨?_, ?_, fun entry => ⟨?_, ?_, ?_⟩, fun d m hd => ?_⟩
  · simp only [parse_eq_ok, exists_document]
  · rintro ms f rfl hf
    rw [← document_violations]
    exact parse_eq_error hf
  · rw [← source_violations, (source_decides entry).violations_eq_nil]
  · rw [← image_violations, (image_decides entry).violations_eq_nil]
  · rw [← tag_violations, (tag_decides entry).violations_eq_nil]
  · rw [givesMetadata_iff]
    have hform := parse_eq_ok.mp hd
    refine ⟨fun hm => ⟨d, hform, hm⟩, ?_⟩
    rintro ⟨d', hform', hm⟩
    have hsame : d' = d := Except.ok.inj
      ((((document_decides v).ok_iff d').mpr hform').symm.trans
        (((document_decides v).ok_iff d).mpr hform))
    exact hsame ▸ hm

end GalleryCatalog.Payload
