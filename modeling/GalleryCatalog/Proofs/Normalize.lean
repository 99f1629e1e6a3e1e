import Mathlib.Data.List.Nodup
import GalleryCatalog.Metadata.Mapping
import GalleryCatalog.Reconcile.Image

/-!
# Normalized lists

Renamed sources and tags stand once each in a normalized list, and every normalized
tag has a name space. The winning images of a list are the last ones for each page.
-/

set_option autoImplicit false

namespace GalleryCatalog

theorem eraseDups_nodup {α : Type} [BEq α] [LawfulBEq α] (xs : List α) :
    xs.eraseDups.Nodup := by
  cases xs with
  | nil => simp
  | cons x xs =>
    rw [List.eraseDups_cons, List.nodup_cons]
    exact ⟨by simp [List.mem_eraseDups], eraseDups_nodup _⟩
termination_by xs.length
decreasing_by
  have := List.length_filter_le (fun y => !y == x) xs
  simp only [List.length_cons]
  omega

/-- What passes a test is found once each, whether it is tested before or after. -/
theorem eraseDups_filter {α : Type} [BEq α] [LawfulBEq α] (p : α → Bool) (xs : List α) :
    (xs.filter p).eraseDups = xs.eraseDups.filter p := by
  cases xs with
  | nil => simp
  | cons x xs =>
    have ih := eraseDups_filter p (xs.filter fun y => !y == x)
    rw [List.eraseDups_cons]
    by_cases hx : p x = true
    · rw [List.filter_cons_of_pos hx, List.filter_cons_of_pos hx, List.eraseDups_cons, ← ih,
        List.filter_filter, List.filter_filter]
      simp only [Bool.and_comm]
    · have hsame : (xs.filter fun y => !y == x).filter p = xs.filter p := by
        rw [List.filter_filter]
        refine List.filter_congr fun y _ => Bool.and_eq_left_iff_imp.mpr fun hy => ?_
        simpa using ne_of_apply_ne p (by simpa [hy] using Ne.symm hx)
      rw [List.filter_cons_of_neg hx, List.filter_cons_of_neg hx, ← ih, hsame]
termination_by xs.length
decreasing_by
  have := List.length_filter_le (fun y => !y == x) xs
  simp only [List.length_cons]
  omega

/-- Of what follows, a list takes in what it does not have yet. -/
theorem eraseDups_append_filter {α : Type} [DecidableEq α] (xs ys : List α) :
    (xs ++ ys).eraseDups = xs.eraseDups ++ ys.eraseDups.filter fun y => y ∉ xs.eraseDups := by
  rw [List.eraseDups_append, List.removeAll, eraseDups_filter]
  congr 1
  apply List.filter_congr
  intro y _
  simp only [List.elem_eq_contains, List.contains_eq_mem, List.mem_eraseDups, decide_not]

theorem mem_normalizeSources {rules : List SourceRule} {sources : List Source} {x : Source} :
    x ∈ normalizeSources rules sources ↔ ∃ y ∈ sources, y.mapped rules = x := by
  simp [normalizeSources, List.mem_eraseDups]

theorem normalizeSources_append (rules : List SourceRule) (xs ys : List Source) :
    normalizeSources rules (xs ++ ys) = normalizeSources rules xs ++
      (normalizeSources rules ys).filter fun y => y ∉ normalizeSources rules xs := by
  unfold normalizeSources
  rw [List.map_append, eraseDups_append_filter]

theorem normalizeSources_nodup (rules : List SourceRule) (sources : List Source) :
    (normalizeSources rules sources).Nodup :=
  eraseDups_nodup _

theorem mem_normalizeTags {rules : List TagRule} {tags : List Tag} {t : Tag} :
    t ∈ normalizeTags rules tags ↔ ∃ u ∈ tags, u.normal.mapped rules = t := by
  simp [normalizeTags, List.mem_eraseDups]

theorem normalizeTags_nodup (rules : List TagRule) (tags : List Tag) :
    (normalizeTags rules tags).Nodup :=
  eraseDups_nodup _

theorem mapped_space_ne (rules : List TagRule) {t : Tag} (h : t.space ≠ "") :
    (t.mapped rules).space ≠ "" := by
  unfold Tag.mapped
  split
  next rule _ =>
    rcases hs : rule.space with _ | space
    · simpa [hs] using h
    · by_cases he : space = "" <;> simp [he, Option.filter, h]
  next => exact h

/-- Tags that stand once each, and have a name space, stay when no rule renames them. -/
theorem normalizeTags_perm {tags : List Tag} (h : tags.Nodup) (hspace : ∀ t ∈ tags, t.space ≠ "") :
    (normalizeTags [] tags).Perm tags := by
  have hstays {t : Tag} (ht : t ∈ tags) : t.normal.mapped [] = t := by
    rw [Tag.normal, if_neg (hspace t ht)]
    rfl
  rw [List.perm_ext_iff_of_nodup (normalizeTags_nodup [] tags) h]
  intro t
  rw [mem_normalizeTags]
  constructor
  · rintro ⟨u, hu, rfl⟩
    rwa [hstays hu]
  · exact fun ht => ⟨t, ht, hstays ht⟩

theorem normalizeTags_space_ne {rules : List TagRule} {tags : List Tag} {t : Tag}
    (h : t ∈ normalizeTags rules tags) : t.space ≠ "" := by
  obtain ⟨u, -, rfl⟩ := mem_normalizeTags.mp h
  exact mapped_space_ne rules u.normal_space_ne

/-! ## Many tags -/

/-- Tags with longer and longer names. -/
def Tag.long (n : Nat) : Tag where
  space := Tag.defaultSpace
  name := .ofList (List.replicate (n + 1) 'x')

theorem Tag.long_injective : Function.Injective Tag.long := by
  intro n k h
  have hname : String.ofList (List.replicate (n + 1) 'x') =
      String.ofList (List.replicate (k + 1) 'x') := congrArg Tag.name h
  simpa using String.ofList_injective hname

def Tag.longs (count : Nat) : List Tag :=
  (List.range count).map Tag.long

@[simp] theorem Tag.longs_length (count : Nat) : (longs count).length = count := by
  simp [longs]

theorem Tag.longs_nodup (count : Nat) : (longs count).Nodup :=
  List.nodup_range.map Tag.long_injective

theorem Tag.longs_space_ne (count : Nat) : ∀ t ∈ longs count, t.space ≠ "" := by
  intro t ht
  obtain ⟨n, -, rfl⟩ := List.mem_map.mp ht
  exact (by decide : Tag.defaultSpace ≠ "")

theorem Tag.long_mem {n count : Nat} (h : n < count) : long n ∈ longs count :=
  List.mem_map_of_mem (List.mem_range.mpr h)

namespace Reconcile

/-- An image stands last for its page in a list. -/
def LastFor (images : List Image) (i : Image) : Prop :=
  ∃ before after, images = before ++ i :: after ∧ ∀ j ∈ after, j.page ≠ i.page

theorem winner?_page {images : List Image} {page : Int} {i : Image}
    (h : winner? images page = some i) : i.page = page := by
  have := List.mem_filter.mp (List.mem_of_getLast? h)
  simpa using this.2

theorem winner?_eq_none {images : List Image} {page : Int} :
    winner? images page = none ↔ ∀ i ∈ images, i.page ≠ page := by
  simp [winner?]

theorem winner?_cons (i : Image) (images : List Image) (page : Int) :
    winner? (i :: images) page =
      (winner? images page).or (if i.page = page then some i else none) := by
  by_cases hi : i.page = page
  · simp only [winner?, hi, List.filter_cons, decide_true, if_true, List.getLast?_cons]
    cases (images.filter fun j => j.page = page).getLast? <;> simp
  · simp [winner?, hi]

theorem lastFor_cons {i j : Image} {images : List Image} :
    LastFor (j :: images) i ↔
      LastFor images i ∨ j = i ∧ ∀ k ∈ images, k.page ≠ i.page := by
  constructor
  · rintro ⟨before, after, heq, hlast⟩
    cases before with
    | nil =>
      obtain ⟨rfl, rfl⟩ := List.cons.inj heq
      exact Or.inr ⟨rfl, hlast⟩
    | cons k before =>
      obtain ⟨rfl, rfl⟩ := List.cons.inj heq
      exact Or.inl ⟨before, after, rfl, hlast⟩
  · rintro (⟨before, after, rfl, hlast⟩ | ⟨rfl, hlast⟩)
    · exact ⟨j :: before, after, rfl, hlast⟩
    · exact ⟨[], images, rfl, hlast⟩

/-- The winner of a page is the last image for it. -/
theorem winner?_eq_some {images : List Image} {page : Int} {i : Image} :
    winner? images page = some i ↔ LastFor images i ∧ i.page = page := by
  induction images with
  | nil => simp [winner?, LastFor]
  | cons j images ih =>
    rw [winner?_cons, lastFor_cons, or_and_right, ← ih]
    cases hwin : winner? images page with
    | some k =>
      have hk : k.page = page := winner?_page hwin
      have hmem : k ∈ images := (List.mem_filter.mp (List.mem_of_getLast? hwin)).1
      simp only [Option.some_or, Option.some.injEq, iff_self_or]
      rintro ⟨⟨-, hnone⟩, hi⟩
      exact absurd (hk.trans hi.symm) (hnone k hmem)
    | none =>
      have hnone := winner?_eq_none.mp hwin
      simp only [Option.none_or, reduceCtorEq, false_or]
      constructor
      · intro h
        split at h
        next hj =>
          obtain rfl := Option.some.inj h
          exact ⟨⟨rfl, fun k hk => hj ▸ hnone k hk⟩, hj⟩
        next => simp at h
      · rintro ⟨⟨rfl, -⟩, hj⟩
        simp [hj]

theorem mem_winners {images : List Image} {i : Image} :
    i ∈ winners images ↔ winner? images i.page = some i := by
  simp only [winners, List.mem_filterMap, List.mem_eraseDups, List.mem_map]
  constructor
  · rintro ⟨page, -, h⟩
    exact winner?_page h ▸ h
  · intro h
    have hmem : i ∈ images := (List.mem_filter.mp (List.mem_of_getLast? h)).1
    exact ⟨i.page, ⟨i, hmem, rfl⟩, h⟩

theorem winners_pages_nodup (images : List Image) :
    ((winners images).map Image.page).Nodup := by
  unfold winners
  generalize hpages : (images.map Image.page).eraseDups = pages
  have hnodup : pages.Nodup := hpages ▸ eraseDups_nodup _
  clear hpages
  induction pages with
  | nil => simp
  | cons page pages ih =>
    obtain ⟨hfirst, hrest⟩ := List.nodup_cons.mp hnodup
    cases hwin : winner? images page with
    | none => simpa [List.filterMap_cons, hwin] using ih hrest
    | some i =>
      rw [List.filterMap_cons, hwin, List.map_cons, List.nodup_cons, winner?_page hwin]
      refine ⟨?_, ih hrest⟩
      simp only [List.mem_map, List.mem_filterMap, not_exists, not_and]
      rintro j ⟨p, hp, hj⟩ rfl
      exact hfirst (winner?_page hj ▸ hp)

theorem winners_find (images : List Image) (page : Int) :
    (winners images).find? (fun i => i.page = page) = winner? images page := by
  cases hwin : winner? images page with
  | none =>
    simp only [List.find?_eq_none, decide_eq_true_eq]
    intro i hi hpage
    rw [mem_winners, hpage, hwin] at hi
    simp at hi
  | some i =>
    have hi : i ∈ winners images := mem_winners.mpr (winner?_page hwin ▸ hwin)
    cases hfind : (winners images).find? fun i => i.page = page with
    | none =>
      have := List.find?_eq_none.mp hfind i hi
      simp [winner?_page hwin] at this
    | some j =>
      have hpage : j.page = page := by simpa using List.find?_some hfind
      have hj := mem_winners.mp (List.mem_of_find?_eq_some hfind)
      rw [← hwin, ← hj, hpage]

/-- What holds of an image that wins a page holds of the winner of the page. -/
theorem winners_any (images : List Image) (page : Int) (p : Image → Prop) [DecidablePred p] :
    ((winners images).any fun i => i.page = page ∧ p i) = (winner? images page).any (p ·) := by
  rw [Bool.eq_iff_iff]
  simp only [List.any_eq_true, decide_eq_true_eq, mem_winners]
  constructor
  · rintro ⟨i, hi, rfl, hp⟩
    simpa [hi] using hp
  · intro hp
    cases hwin : winner? images page with
    | none => simp [hwin] at hp
    | some i =>
      have hpage := winner?_page hwin
      exact ⟨i, hpage ▸ hwin, hpage, by simpa [hwin] using hp⟩

theorem hasPage_winners (images : List Image) (page : Int) :
    hasPage (winners images) page = (winner? images page).isSome := by
  rw [← winners_find, List.isSome_find?]
  rfl

end Reconcile

end GalleryCatalog
