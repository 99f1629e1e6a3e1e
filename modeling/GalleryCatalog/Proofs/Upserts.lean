import GalleryCatalog.Proofs.ImageIntegers

/-!
# Upserts

A batch of upserts does what its entries do one after the other, also when several of them are for
one page or one tag. An entry finds the rows that the entries before it have left, goes over the
one that has its key or adds one, and shows it as it is then. A batch of images with an integer
that no column holds is refused as a whole, whatever stands before that integer. So is a batch that
has more values than one statement binds.
-/

set_option autoImplicit false

namespace GalleryCatalog

/-! ## One entry -/

/-- A row has become that of another image for its page. A dimension that the image does not give
stays. -/
structure ImageRow.Rewritten (old : ImageRow) (i : Image) (new : ImageRow) : Prop where
  key : new.id = old.id ∧ new.archive = old.archive ∧ new.page = old.page
  filename : new.filename = i.filename
  given : ∀ n, (i.width = some n → new.width = some n) ∧ (i.height = some n → new.height = some n)
  kept : (i.width = none → new.width = old.width) ∧ (i.height = none → new.height = old.height)

namespace Store

/-- An image comes into a new row under the highest number, or over the row of its page. -/
inductive PutsImage (archive : Int) (i : Image) (s : Store) : Image → Store → Prop
  | added (row : ImageRow)
      (absent : ∀ r ∈ s.images, ¬ (r.archive = archive ∧ r.page = i.page))
      (fresh : ∀ r ∈ s.images, r.id < row.id) (owner : row.archive = archive)
      (shown : row.image = i) :
      PutsImage archive i s row.image { s with images := s.images ++ [row] }
  | rewritten (before after : List ImageRow) (old new : ImageRow)
      (held : s.images = before ++ old :: after)
      (page : old.archive = archive ∧ old.page = i.page) (rewrites : old.Rewritten i new) :
      PutsImage archive i s new.image { s with images := before ++ new :: after }

/-- A tag comes into a new row under the highest number, or has its row already. -/
inductive PutsTag (t : Tag) (s : Store) : TagRow → Store → Prop
  | added (row : TagRow) (absent : ∀ r ∈ s.tags, r.tag ≠ t) (fresh : ∀ r ∈ s.tags, r.id < row.id)
      (shown : row.tag = t) : PutsTag t s row { s with tags := s.tags ++ [row] }
  | there (row : TagRow) (held : row ∈ s.tags) (shown : row.tag = t) : PutsTag t s row s

/-- The keys that the database sees to in the table of images. -/
structure ImagesKeyed (s : Store) : Prop where
  ids : (s.images.map ImageRow.id).Nodup
  pages : (s.images.map fun r => (r.archive, r.page)).Nodup

/-- Nothing has changed but rows of some pages of an archive. -/
structure OtherPagesStay (archive : Int) (pages : List Int) (s s' : Store) : Prop where
  tables : ∃ rows, s' = { s with images := rows }
  rows : s'.images.filter (fun r => ¬ (r.archive = archive ∧ r.page ∈ pages)) =
    s.images.filter fun r => ¬ (r.archive = archive ∧ r.page ∈ pages)

/-- Rows of tags have come at the end of their table, and nothing else has changed. -/
def OnlyAddsTags (s s' : Store) : Prop :=
  ∃ added, s' = { s with tags := s.tags ++ added }

instance (archive : Int) (pages : List Int) : Std.Refl (OtherPagesStay archive pages) where
  refl _ := ⟨⟨_, rfl⟩, rfl⟩

instance (archive : Int) (pages : List Int) : IsTrans Store (OtherPagesStay archive pages) where
  trans := by
    rintro s t u ⟨⟨_, rfl⟩, hrows⟩ ⟨⟨_, rfl⟩, hrows'⟩
    exact ⟨⟨_, rfl⟩, hrows'.trans hrows⟩

instance : Std.Refl OnlyAddsTags where
  refl s := ⟨[], by simp⟩

instance : IsTrans Store OnlyAddsTags where
  trans := by
    rintro s t u ⟨added, rfl⟩ ⟨more, rfl⟩
    exact ⟨added ++ more, by simp⟩

section Image

variable {archive : Int} {i : Image} {s s' : Store} {shown : Image}

/-- In a table with its keys an image goes over one row at most. -/
theorem map_updated {before after : List ImageRow} {old : ImageRow}
    (hold : old.isPage archive i.page = true)
    (hpages : ((before ++ old :: after).map fun r => (r.archive, r.page)).Nodup) :
    (before ++ old :: after).map (fun r => if r.isPage archive i.page then r.updated i else r) =
      before ++ old.updated i :: after := by
  rw [List.map_append, List.map_cons, List.nodup_middle, List.nodup_cons, ← List.map_append]
    at hpages
  obtain ⟨ha, hp⟩ := isPage_iff.mp hold
  have hother : ∀ r ∈ before ++ after,
      (if r.isPage archive i.page then r.updated i else r) = r := by
    intro r hr
    refine if_neg fun hsame => hpages.1 (List.mem_map.mpr ⟨r, hr, ?_⟩)
    obtain ⟨hra, hrp⟩ := isPage_iff.mp hsame
    rw [hra, hrp, ha, hp]
  rw [List.map_append, List.map_cons, if_pos hold,
    List.map_congr_left fun r hr => hother r (List.mem_append_left _ hr),
    List.map_congr_left fun r hr => hother r (List.mem_append_right _ hr), List.map_id', List.map_id']

theorem putImage_puts (h : s.ImagesKeyed) (archive : Int) (i : Image) :
    s.PutsImage archive i (putImage archive i s).1 (putImage archive i s).2 := by
  unfold putImage
  cases hfind : s.images.find? (·.isPage archive i.page) with
  | none =>
    refine .added _ (fun r hr hpage => ?_) (fun r hr => ?_) rfl rfl
    · exact List.find?_eq_none.mp hfind r hr (isPage_iff.mpr hpage)
    · exact lt_nextId (List.mem_map_of_mem hr)
  | some old =>
    obtain ⟨hold, before, after, hrows, -⟩ := List.find?_eq_some_iff_append.mp hfind
    dsimp only
    rw [hrows, map_updated hold (hrows ▸ h.pages)]
    refine .rewritten before after old _ hrows (isPage_iff.mp hold)
      ⟨⟨rfl, rfl, rfl⟩, rfl, fun n => ?_, ?_⟩
    · constructor <;> intro hgiven <;> simp [ImageRow.updated, hgiven]
    · constructor <;> intro habsent <;> simp [ImageRow.updated, habsent]

theorem PutsImage.keyed (h : s.PutsImage archive i shown s') (hs : s.ImagesKeyed) :
    s'.ImagesKeyed := by
  cases h with
  | added row absent fresh owner shown =>
    have hpage : row.page = i.page := congrArg Image.page shown
    constructor
    · exact nodup_map_append hs.ids fun r hr => Int.ne_of_lt (fresh r hr)
    · refine nodup_map_append hs.pages fun r hr hsame => ?_
      obtain ⟨ha, hp⟩ := Prod.mk.inj hsame
      exact absent r hr ⟨ha.trans owner, hp.trans hpage⟩
  | rewritten before after old new held page rewrites =>
    obtain ⟨⟨hid, ha, hp⟩, -, -, -⟩ := rewrites
    have hids := hs.ids
    have hpages := hs.pages
    rw [held, List.map_append, List.map_cons] at hids hpages
    constructor <;> rw [List.map_append, List.map_cons]
    · rwa [hid]
    · rwa [ha, hp]

theorem PutsImage.otherPages {pages : List Int} (h : s.PutsImage archive i shown s')
    (hi : i.page ∈ pages) : s.OtherPagesStay archive pages s' := by
  cases h with
  | added row absent fresh owner shown =>
    have hpage : row.page = i.page := congrArg Image.page shown
    exact ⟨⟨_, rfl⟩, by simp [List.filter_append, owner, hpage, hi]⟩
  | rewritten before after old new held page rewrites =>
    obtain ⟨⟨-, ha, hp⟩, -, -, -⟩ := rewrites
    refine ⟨⟨_, rfl⟩, ?_⟩
    rw [held]
    simp [List.filter_append, ha, hp, page, hi]

end Image

section Tag

variable {t : Tag} {s s' : Store} {row : TagRow}

theorem putTag_puts (t : Tag) (s : Store) : s.PutsTag t (putTag t s).1 (putTag t s).2 := by
  unfold putTag
  split
  next row hfind =>
    exact .there row (List.mem_of_find?_eq_some hfind) (by simpa using List.find?_some hfind)
  next hnone =>
    exact .added _ (by simpa using List.find?_eq_none.mp hnone)
      (fun r hr => lt_nextId (List.mem_map_of_mem hr)) rfl

theorem PutsTag.keyed (h : s.PutsTag t row s') (hs : s.TagsKeyed) : s'.TagsKeyed := by
  cases h with
  | there => exact hs
  | added absent fresh shown =>
    exact ⟨nodup_map_append hs.ids fun r hr => Int.ne_of_lt (fresh r hr),
      nodup_map_append hs.once fun r hr => shown ▸ absent r hr⟩

theorem PutsTag.onlyAdds (h : s.PutsTag t row s') : s.OnlyAddsTags s' := by
  cases h with
  | there => exact refl_of _ s
  | added => exact ⟨[row], rfl⟩

end Tag

/-! ## Entries one by one -/

section OneByOne

variable {α β : Type}

/-- Entries are taken one after the other. Each shows one row and leaves a store to the next. -/
inductive OneByOne (puts : α → Store → β → Store → Prop) :
    List α → Store → List β → Store → Prop
  | nil (s : Store) : OneByOne puts [] s [] s
  | cons {x : α} {xs : List α} {row : β} {rows : List β} {s t u : Store}
      (first : puts x s row t) (rest : OneByOne puts xs t rows u) :
      OneByOne puts (x :: xs) s (row :: rows) u

variable {puts : α → Store → β → Store → Prop} {xs : List α} {rows : List β} {s s' : Store}

/-- What relates the stores before and after every entry relates those before and after all. -/
theorem OneByOne.relates {R : Store → Store → Prop} [Std.Refl R] [IsTrans Store R]
    (h : OneByOne puts xs s rows s')
    (hputs : ∀ x ∈ xs, ∀ s row s', puts x s row s' → R s s') : R s s' := by
  induction h with
  | nil s => exact refl_of R s
  | cons first rest ih =>
    exact trans_of R (hputs _ (by simp) _ _ _ first) (ih fun x hx => hputs x (by simp [hx]))

/-- What every entry keeps, all of them keep. -/
theorem OneByOne.keeps {P : Store → Prop} (h : OneByOne puts xs s rows s')
    (hputs : ∀ x s row s', puts x s row s' → P s → P s') (hs : P s) : P s' := by
  induction h with
  | nil => exact hs
  | cons first rest ih => exact ih (hputs _ _ _ _ first hs)

end OneByOne

end Store

/-! ## Batches -/

namespace Repository

open Store

/-- The entries of a list are put one by one, each where the one before it has left off. -/
def Singly {α β : Type} (upsert : List α → Access (List β))
    (puts : α → Store → β → Store → Prop) : List α → Store → List β → Store → Prop :=
  OneByOne fun x t row t' => upsert [x] (.live t) = .ok [row] (.live t') ∧ puts x t row t'

section Images

/-- Every entry of a batch has integers that columns hold, and a number of an archive that one
holds. -/
def ColumnsHold (archive : Int) (images : List Image) : Prop :=
  ∀ i ∈ images, InRange archive ∧ i.InRange

variable {archive : Int} {images : List Image}

theorem columnsHold_iff : ColumnsHold archive images ↔
    images = [] ∨ (archive :: images.flatMap imageIntegers).all fits = true := by
  simp only [ColumnsHold, Image.inRange_iff, ← fits_iff_inRange, List.all_eq_true, List.mem_cons,
    List.mem_flatMap]
  constructor
  · intro h
    cases images with
    | nil => exact .inl rfl
    | cons i images =>
      refine .inr ?_
      rintro n (rfl | ⟨j, hj, hn⟩)
      · exact (h i (by simp)).1
      · exact (h j hj).2 n hn
  · rintro (rfl | hall) i hi
    · simp at hi
    · exact ⟨hall archive (.inl rfl), fun n hn => hall n (.inr ⟨i, hi, hn⟩)⟩

theorem upsertImages_held (hfew : 5 * images.length ≤ parameterLimit)
    (h : ColumnsHold archive images) (s : Store) :
    upsertImages archive images (.live s) =
      .ok (putImages archive images s).1 (.live (images.foldl (withImage archive) s)) := by
  have hrefusal : (if images = [] then none else
      refusal? (5 * images.length) (archive :: images.flatMap imageIntegers)) = none := by
    split_ifs with hnil
    · rfl
    · exact refusal?_eq_none.mpr ⟨hfew, (columnsHold_iff.mp h).resolve_left hnil⟩
  rw [upsertImages_live, hrefusal]

theorem upsertImages_unfit (hfew : 5 * images.length ≤ parameterLimit)
    (h : ¬ ColumnsHold archive images) (s : Store) :
    upsertImages archive images (.live s) = .error .integerOutOfRange (.live s) := by
  obtain ⟨hnil, hunfit⟩ := not_or.mp (mt columnsHold_iff.mpr h)
  rw [upsertImages_live, if_neg hnil, refusal?, if_neg (not_not.mpr hfew), if_pos hunfit]

theorem upsertImages_tooMany (h : parameterLimit < 5 * images.length) (s : Store) :
    upsertImages archive images (.live s) = .error .tooManyParameters (.live s) := by
  have hnil : images ≠ [] := by
    rintro rfl
    exact Nat.not_lt_zero _ h
  rw [upsertImages_live, if_neg hnil, refusal?, if_pos (Nat.not_le.mpr h)]

theorem putImages_singly {s : Store} (hs : s.ImagesKeyed) (h : ColumnsHold archive images) :
    Singly (upsertImages archive) (PutsImage archive) images s (putImages archive images s).1
      (images.foldl (withImage archive) s) := by
  induction images generalizing s with
  | nil => exact .nil s
  | cons i images ih =>
    have hputs := putImage_puts hs archive i
    have hone : ColumnsHold archive [i] := by simpa [ColumnsHold] using h i (by simp)
    have hfew : 5 * [i].length ≤ parameterLimit := (by decide : 5 * 1 ≤ parameterLimit)
    exact .cons ⟨upsertImages_held hfew hone s, hputs⟩
      (ih (hputs.keyed hs) fun j hj => h j (by simp [hj]))

end Images

section Tags

variable {tags : List Tag}

theorem upsertTags_few (h : 2 * tags.length ≤ parameterLimit) (s : Store) :
    upsertTags tags (.live s) = .ok (putTags tags s).1 (.live (tags.foldl withTag s)) := by
  rw [upsertTags_live, tagRefusal?_eq_none.mpr h]

theorem upsertTags_tooMany (h : parameterLimit < 2 * tags.length) (s : Store) :
    upsertTags tags (.live s) = .error .tooManyParameters (.live s) := by
  have hrefusal : tagRefusal? tags = some .tooManyParameters := if_pos (Nat.not_le.mpr h)
  rw [upsertTags_live, hrefusal]

theorem putTags_singly (tags : List Tag) (s : Store) :
    Singly upsertTags PutsTag tags s (putTags tags s).1 (tags.foldl withTag s) := by
  induction tags generalizing s with
  | nil => exact .nil s
  | cons t tags ih =>
    have hfew : 2 * [t].length ≤ parameterLimit := (by decide : 2 * 1 ≤ parameterLimit)
    exact .cons ⟨upsertTags_few hfew s, putTag_puts t s⟩ (ih _)

end Tags

/-- In tables with their keys the entries of a list can be put one by one if columns hold their
integers. The keys stay then, and so do the rows of other pages and of all tags. A batch does the
same if it has no more values than a statement binds. With more values, or an integer that no
column holds, it is refused and leaves the rows as they were. -/
theorem upserts_one_by_one {s : Store} (himages : s.ImagesKeyed) (htags : s.TagsKeyed)
    (archive : Int) (images : List Image) (tags : List Tag) :
    (ColumnsHold archive images → ∃ rows s',
      Singly (upsertImages archive) (PutsImage archive) images s rows s' ∧
        s'.ImagesKeyed ∧ s.OtherPagesStay archive (images.map Image.page) s' ∧
        (5 * images.length ≤ parameterLimit →
          upsertImages archive images (.live s) = .ok rows (.live s'))) ∧
    (5 * images.length ≤ parameterLimit → ¬ ColumnsHold archive images →
      upsertImages archive images (.live s) = .error .integerOutOfRange (.live s)) ∧
    (parameterLimit < 5 * images.length →
      upsertImages archive images (.live s) = .error .tooManyParameters (.live s)) ∧
    (∃ rows s', Singly upsertTags PutsTag tags s rows s' ∧ s'.TagsKeyed ∧ s.OnlyAddsTags s' ∧
      (2 * tags.length ≤ parameterLimit →
        upsertTags tags (.live s) = .ok rows (.live s'))) ∧
    (parameterLimit < 2 * tags.length →
      upsertTags tags (.live s) = .error .tooManyParameters (.live s)) := by
  refine ⟨fun hholds => ?_, fun hfew hunfit => upsertImages_unfit hfew hunfit s,
    fun hmany => upsertImages_tooMany hmany s, ?_, fun hmany => upsertTags_tooMany hmany s⟩
  · have hsingly := putImages_singly himages hholds
    refine ⟨_, _, hsingly, ?_, ?_, fun hfew => upsertImages_held hfew hholds s⟩
    · exact hsingly.keeps (fun _ _ _ _ h => h.2.keyed) himages
    · exact hsingly.relates fun i hi _ _ _ h => h.2.otherPages (List.mem_map_of_mem hi)
  · have hsingly := putTags_singly tags s
    refine ⟨_, _, hsingly, ?_, ?_, fun hfew => upsertTags_few hfew s⟩
    · exact hsingly.keeps (fun _ _ _ _ h => h.2.keyed) htags
    · exact hsingly.relates fun _ _ _ _ _ h => h.2.onlyAdds

/-- Page 2 comes twice and ends with the width of its first entry and the height of its second. The
tag that is there and the one that comes twice have one row each. -/
theorem repeated_page_and_tag :
    let s : Store :=
      { images := [⟨4, 1, 1, "1.png", some 10, some 20⟩], tags := [⟨3, ⟨"a", "b"⟩⟩] }
    let images : List Image :=
      [⟨"2.png", 2, some 30, none⟩, ⟨"1.jpg", 1, none, some 25⟩, ⟨"2.jpg", 2, none, some 40⟩]
    let tags : List Tag := [⟨"c", "d"⟩, ⟨"a", "b"⟩, ⟨"c", "d"⟩]
    let shown : List Image :=
      [⟨"2.png", 2, some 30, none⟩, ⟨"1.jpg", 1, some 10, some 25⟩, ⟨"2.jpg", 2, some 30, some 40⟩]
    let shownTags : List TagRow := [⟨4, ⟨"c", "d"⟩⟩, ⟨3, ⟨"a", "b"⟩⟩, ⟨4, ⟨"c", "d"⟩⟩]
    let s₁ : Store :=
      { s with images :=
          [⟨4, 1, 1, "1.jpg", some 10, some 25⟩, ⟨5, 1, 2, "2.jpg", some 30, some 40⟩] }
    let s₂ : Store := { s with tags := [⟨3, ⟨"a", "b"⟩⟩, ⟨4, ⟨"c", "d"⟩⟩] }
    (upsertImages 1 images (.live s) = .ok shown (.live s₁) ∧
      Singly (upsertImages 1) (PutsImage 1) images s shown s₁) ∧
      upsertTags tags (.live s) = .ok shownTags (.live s₂) ∧
      Singly upsertTags PutsTag tags s shownTags s₂ := by
  intro s images tags shown shownTags s₁ s₂
  have hkeyed : s.ImagesKeyed := ⟨by decide, by decide⟩
  have htagsKeyed : s.TagsKeyed := ⟨by decide, by decide⟩
  have hholds : ColumnsHold 1 images := by
    simp only [ColumnsHold, Image.inRange_iff]
    decide
  have himages : upsertImages 1 images (.live s) = .ok shown (.live s₁) := rfl
  have htags : upsertTags tags (.live s) = .ok shownTags (.live s₂) := rfl
  obtain ⟨hall, -, -, ⟨rows', s', hsinglyTags, -, -, hbatchTags⟩, -⟩ :=
    upserts_one_by_one hkeyed htagsKeyed 1 images tags
  obtain ⟨rows, t, hsingly, -, -, hbatch⟩ := hall hholds
  obtain ⟨rfl, ⟨⟩⟩ := EStateM.Result.ok.inj ((hbatch (by decide)).symm.trans himages)
  obtain ⟨rfl, ⟨⟩⟩ := EStateM.Result.ok.inj ((hbatchTags (by decide)).symm.trans htags)
  exact ⟨⟨himages, hsingly⟩, htags, hsinglyTags⟩

/-- One tag that comes too often for a batch gets its row when it is put one by one. A width that no
column holds refuses the batch, and of the entries one by one only the last. -/
theorem batches_refused :
    let tags := List.replicate 16384 (⟨"", "x"⟩ : Tag)
    let first : Image := ⟨"1.png", 1, none, none⟩
    let wide : Image := ⟨"2.png", 2, some 0x8000000000000000, none⟩
    let s : Store := { images := [⟨1, 1, 1, "1.png", none, none⟩] }
    (upsertTags tags (.live {}) = .error .tooManyParameters (.live {}) ∧
      ∃ rows s', Singly upsertTags PutsTag tags {} rows s' ∧ ∃ r ∈ s'.tags, r.tag = ⟨"", "x"⟩) ∧
    upsertImages 1 [first, wide] (.live {}) = .error .integerOutOfRange (.live {}) ∧
      upsertImages 1 [first] (.live {}) = .ok [first] (.live s) ∧
      upsertImages 1 [wide] (.live s) = .error .integerOutOfRange (.live s) := by
  intro tags first wide s
  have hmany : parameterLimit < 2 * tags.length := by
    rw [List.length_replicate]
    decide
  have hrow := withTags_row (List.mem_replicate.mpr ⟨by decide, rfl⟩ : ⟨"", "x"⟩ ∈ tags) {}
  exact ⟨⟨upsertTags_tooMany hmany {}, _, _, putTags_singly tags {}, hrow⟩, rfl, rfl, rfl⟩

end Repository

end GalleryCatalog
