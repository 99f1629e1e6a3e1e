import Mathlib.Tactic.SplitIfs
import GalleryCatalog.Payload.Reading
import GalleryCatalog.Proofs.Checks

/-!
# Forms of documents

What each part of a document may be, and what it then stands for: a member that may be absent
or null, a text, a whole number, a source, an image, a tag, a document. The check of each part
decides its form.
-/

set_option autoImplicit false

namespace GalleryCatalog.Payload

open Json (Value Members)
open Check (Decides inside)

/-! ## Forms -/

section Forms

variable {α : Type}

/-- A member that may be absent or null. -/
inductive Maybe (form : Value → α → Prop) : Option Value → Option α → Prop
  | absent : Maybe form none none
  | null : Maybe form (some .null) none
  | given {v : Value} {a : α} (h : form v a) : Maybe form (some v) (some a)

def IsText (v : Value) (s : String) : Prop :=
  v = .text s

def IsName (v : Value) (s : String) : Prop :=
  v = .text s ∧ s ≠ ""

/-- A value that converts to a whole number of some kind. -/
def IsNumber (kind : Int → Prop) (v : Value) (n : Int) : Prop :=
  integerOf v = .ok n ∧ kind n

/-- A list of entries of one form. -/
def IsList (form : Value → α → Prop) (v : Value) (as : List α) : Prop :=
  ∃ items, v = .array items ∧ List.Forall₂ form items as

def IsSource (v : Value) (e : SourceEntry) : Prop :=
  ∃ ms, v = .object ms ∧ Maybe IsText (ms.lookup "name") e.name ∧
    Maybe IsText (ms.lookup "url") e.url

/-- The member for the page, under its second name where it is absent under the first. -/
def pageMember (ms : Members) : Option Value :=
  (ms.lookup "pageNumber").or (ms.lookup "page_number")

def IsImage (v : Value) (e : ImageEntry) : Prop :=
  ∃ ms, v = .object ms ∧ (∃ name, ms.lookup "filename" = some name ∧ IsName name e.filename) ∧
    (∃ page, pageMember ms = some page ∧ IsNumber (0 ≤ ·) page e.page) ∧
    Maybe (IsNumber (0 < ·)) (ms.lookup "width") e.width ∧
    Maybe (IsNumber (0 < ·)) (ms.lookup "height") e.height

inductive IsTag : Value → TagEntry → Prop
  | composite (s : String) : IsTag (.text s) (.composite s)
  | parts {ms : Members} {space name : String} (hspace : ms.lookup "namespace" = none ∧ space = "" ∨
        ms.lookup "namespace" = some (.text space))
      (hname : ∃ v, ms.lookup "name" = some v ∧ IsName v name) :
      IsTag (.object ms) (.parts space name)

def IsDocument (v : Value) (d : Document) : Prop :=
  ∃ ms, v = .object ms ∧ Maybe (IsList IsSource) (ms.lookup "sources") d.sources ∧
    Maybe (IsList IsImage) (ms.lookup "images") d.images ∧
    Maybe (IsList IsTag) (ms.lookup "tags") d.tags

end Forms

/-! ## Members -/

section Members

variable {α : Type} {check : Value → Check α} {form : Value → α → Prop}

theorem text_decides (v : Value) : (text v).Decides (IsText v) := by
  cases v with
  | text s => exact (Check.accept_decides s).congr fun a => by simp [IsText]
  | _ => exact (Check.refuse_decides .notText).congr fun a => by simp [IsText]

theorem nonEmptyText_decides (v : Value) : (nonEmptyText v).Decides (IsName v) := by
  cases v with
  | text s =>
    unfold nonEmptyText
    dsimp only
    split_ifs with hs
    · exact (Check.refuse_decides .emptyText).congr fun a => by simp_all [IsName]
    · exact (Check.accept_decides s).congr fun a => by
        simpa [IsName] using fun h => h ▸ hs
  | _ => exact (Check.refuse_decides .notText).congr fun a => by simp [IsName]

theorem integerThat_decides {holds : Int → Bool} {kind : Int → Prop}
    (h : ∀ n, holds n = true ↔ kind n) (fault : Fault) (v : Value) :
    (integerThat holds fault v).Decides (IsNumber kind v) := by
  unfold integerThat IsNumber
  cases hv : integerOf v with
  | error f => exact (Check.refuse_decides f).congr fun a => by simp
  | ok n =>
    dsimp only
    split_ifs with hn
    · exact (Check.accept_decides n).congr fun a => by
        simpa using fun ha => ha ▸ (h n).mp hn
    · exact (Check.refuse_decides fault).congr fun a => by
        simpa using fun ha => ha ▸ fun hkind => hn ((h n).mpr hkind)

theorem required_decides (h : ∀ v, (check v).Decides (form v)) (ms : Members) (name : String) :
    (required ms name check).Decides fun a => ∃ v, ms.lookup name = some v ∧ form v a := by
  unfold required
  cases hv : ms.lookup name with
  | none => exact ((Check.refuse_decides .missing).within _).congr fun a => by simp
  | some v => exact ((h v).within _).congr fun a => by simp

/-- Null stands for nothing, where it has not itself the form. -/
theorem nullable_decides (h : ∀ v, (check v).Decides (form v)) (hnull : ∀ a, ¬ form .null a)
    (v : Value) : (nullable check v).Decides (Maybe form (some v)) := by
  have hsome (a : Option α) : (∃ b, form v b ∧ some b = a) → Maybe form (some v) a := by
    rintro ⟨b, hb, rfl⟩
    exact .given hb
  cases v with
  | null =>
    refine (Check.accept_decides none).congr fun a => ⟨?_, ?_⟩
    · rintro rfl
      exact .null
    · rintro (_ | _ | hgiven)
      · rfl
      · exact absurd hgiven (hnull _)
  | _ =>
    refine ((h _).map some).congr fun a => ⟨hsome a, ?_⟩
    rintro (_ | _ | hgiven)
    exact ⟨_, hgiven, rfl⟩

theorem member_decides (h : ∀ v, (check v).Decides (form v)) (hnull : ∀ a, ¬ form .null a)
    (ms : Members) (name : String) :
    (optional ms name none (nullable check)).Decides (Maybe form (ms.lookup name)) := by
  unfold optional
  cases ms.lookup name with
  | some v => exact (nullable_decides h hnull v).within _
  | none =>
    refine (Check.accept_decides none).congr fun a => ⟨?_, ?_⟩
    · rintro rfl
      exact .absent
    · rintro ⟨⟩
      rfl

theorem arrayOf_decides (h : ∀ v, (check v).Decides (form v)) (v : Value) :
    (arrayOf check v).Decides (IsList form v) := by
  cases v with
  | array items =>
    have hitems (p : Value × Nat) : ((check p.1).within (.index p.2)).Decides (form p.1) :=
      (h p.1).within _
    refine (Check.all_decides hitems items.zipIdx).congr fun as => ?_
    have hforms : List.Forall₂ (fun p : Value × Nat => form p.1) items.zipIdx as ↔
        List.Forall₂ form items as := by
      rw [← List.forall₂_map_left_iff, List.zipIdx_map_fst]
    simp [IsList, hforms]
  | _ => exact (Check.refuse_decides .notArray).congr fun a => by simp [IsList]

end Members

/-! ## Records -/

section Records

variable (ms : Members) (v : Value)

theorem isText_null (s : String) : ¬ IsText .null s := by
  simp [IsText]

theorem isNumber_null (kind : Int → Prop) (n : Int) : ¬ IsNumber kind .null n := by
  simp [IsNumber, integerOf]

theorem isList_null {α : Type} (form : Value → α → Prop) (as : List α) :
    ¬ IsList form .null as := by
  simp [IsList]

theorem dimension_decides : (dimension v).Decides (IsNumber (0 < ·) v) :=
  integerThat_decides (by simp) _ v

theorem source_decides : (source v).Decides (IsSource v) := by
  cases v with
  | object ms =>
    have hname := member_decides text_decides isText_null ms "name"
    have hurl := member_decides text_decides isText_null ms "url"
    refine (((hname.both hurl).map _).carrying _ _).congr fun e => ⟨?_, ?_⟩
    · rintro ⟨p, ⟨hname, hurl⟩, rfl⟩
      exact ⟨ms, rfl, hname, hurl⟩
    · rintro ⟨_, ⟨⟩, hname, hurl⟩
      exact ⟨(e.name, e.url), ⟨hname, hurl⟩, rfl⟩
  | _ => exact (Check.refuse_decides .notObject).congr fun e => by simp [IsSource]

theorem lookup_pageKey : ms.lookup (pageKey ms) = pageMember ms := by
  unfold pageKey pageMember
  cases hfirst : ms.lookup "pageNumber" with
  | some v => simp [hfirst]
  | none => cases hsecond : ms.lookup "page_number" <;> simp [hfirst, hsecond]

theorem image_decides : (image v).Decides (IsImage v) := by
  cases v with
  | object ms =>
    have hfile := required_decides nonEmptyText_decides ms "filename"
    have hpage : (required ms (pageKey ms) pageNumber).Decides fun n =>
        ∃ page, pageMember ms = some page ∧ IsNumber (0 ≤ ·) page n := by
      rw [← lookup_pageKey]
      exact required_decides (integerThat_decides (by simp) _) ms (pageKey ms)
    have hsize (name : String) := member_decides dimension_decides (isNumber_null _) ms name
    refine ((((hfile.both hpage).both ((hsize "width").both (hsize "height"))).map _).carrying
      _ _).congr fun e => ⟨?_, ?_⟩
    · rintro ⟨p, ⟨⟨hfile, hpage⟩, hwidth, hheight⟩, rfl⟩
      exact ⟨ms, rfl, hfile, hpage, hwidth, hheight⟩
    · rintro ⟨_, ⟨⟩, hfile, hpage, hwidth, hheight⟩
      exact ⟨((e.filename, e.page), e.width, e.height), ⟨⟨hfile, hpage⟩, hwidth, hheight⟩, rfl⟩
  | _ => exact (Check.refuse_decides .notObject).congr fun e => by simp [IsImage]

theorem tagObject_decides : (tagObject v).Decides fun e => IsTag v e ∧ ∀ s, v ≠ .text s := by
  cases v with
  | object ms =>
    have hname := required_decides nonEmptyText_decides ms "name"
    have hspace : (optional ms "namespace" "" text).Decides fun space =>
        ms.lookup "namespace" = none ∧ space = "" ∨
          ms.lookup "namespace" = some (.text space) := by
      unfold optional
      cases ms.lookup "namespace" with
      | none => exact (Check.accept_decides "").congr fun s => by simp [eq_comm]
      | some v => exact ((text_decides v).within _).congr fun s => by simp [IsText]
    refine (((hname.both hspace).map _).carrying _ _).congr fun e => ⟨?_, ?_⟩
    · rintro ⟨p, ⟨hname, hspace⟩, rfl⟩
      exact ⟨.parts hspace hname, by simp⟩
    · rintro ⟨_ | ⟨hspace, hname⟩, -⟩
      exact ⟨(_, _), ⟨hname, hspace⟩, rfl⟩
  | text s => exact (Check.refuse_decides .notObject).congr fun e => by simp
  | _ =>
    refine (Check.refuse_decides .notObject).congr fun e => iff_of_false not_false ?_
    rintro ⟨⟨⟩, -⟩

theorem tag_decides : (tag v).Decides (IsTag v) := by
  by_cases htext : ∃ s, v = .text s
  · obtain ⟨s, rfl⟩ := htext
    refine (Check.accept_decides _).congr fun e => ⟨?_, ?_⟩
    · rintro rfl
      exact .composite s
    · rintro ⟨⟩
      rfl
  · have hne : ∀ s, v ≠ .text s := fun s hs => htext ⟨s, hs⟩
    have hobject : (tagObject v).Decides (IsTag v) :=
      (tagObject_decides v).congr fun e => and_iff_left hne
    cases hout : (tagObject v).outcome with
    | ok e =>
      have htag : tag v = tagObject v := by
        cases v with
        | text s => exact absurd rfl (hne s)
        | _ => simp only [tag, hout]
      exact htag ▸ hobject
    | error vs =>
      have htag : tag v = (((tagObject v).within (.key Model.tag.title)).both
          ((Check.refuse .notText : Check TagEntry).within (.key "str"))).map Prod.fst := by
        cases v with
        | text s => exact absurd rfl (hne s)
        | _ => simp only [tag, hout]
      have hnone (e : TagEntry) : ¬ IsTag v e := fun he => by
        rw [(hobject.ok_iff e).mpr he] at hout
        cases hout
      rw [htag]
      refine (((hobject.within _).both ((Check.refuse_decides .notText).within _)).map _).congr
        fun e => iff_of_false ?_ (hnone e)
      rintro ⟨p, ⟨-, hfalse⟩, -⟩
      exact hfalse

theorem document_decides : (document v).Decides (IsDocument v) := by
  cases v with
  | object ms =>
    have hsources := member_decides (arrayOf_decides source_decides) (isList_null _) ms "sources"
    have himages := member_decides (arrayOf_decides image_decides) (isList_null _) ms "images"
    have htags := member_decides (arrayOf_decides tag_decides) (isList_null _) ms "tags"
    refine (((hsources.both (himages.both htags)).map _).carrying _ _).congr fun d => ⟨?_, ?_⟩
    · rintro ⟨p, ⟨hsources, himages, htags⟩, rfl⟩
      exact ⟨ms, rfl, hsources, himages, htags⟩
    · rintro ⟨_, ⟨⟩, hsources, himages, htags⟩
      exact ⟨(d.sources, d.images, d.tags), ⟨hsources, himages, htags⟩, rfl⟩
  | _ => exact (Check.refuse_decides .notObject).congr fun d => by simp [IsDocument]

end Records

end GalleryCatalog.Payload
