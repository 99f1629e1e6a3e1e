import GalleryCatalog.Proofs.TagPass

/-!
# Looking up tags

Rows of tags are looked up by text first, and a colon in a name or a name space lets several tags
share one text. What tells the rows apart is the second look, at the tags themselves. So a look-up
shows the rows of the wanted tags, each of them once, wherever the colons stand. Only when there
are too many texts for one statement it fails, and shows none.
-/

set_option autoImplicit false

namespace GalleryCatalog

/-! ## Tags with one text -/

/-- The space of `t` is that of `u`, a colon and a part. The name of `u` is this part, a colon and
the name of `t`. -/
def Tag.Shifted (t u : Tag) : Prop :=
  ∃ part, t.space = u.space ++ ":" ++ part ∧ u.name = part ++ ":" ++ t.name

/-- Two tags are the same, or differ in what stands on which side of the colon. -/
def Tag.SharesText (t u : Tag) : Prop :=
  t = u ∨ t.Shifted u ∨ u.Shifted t

theorem Tag.composite_chars (t : Tag) :
    t.composite.toList = t.space.toList ++ ':' :: t.name.toList := by
  simp [composite]

theorem Tag.Shifted.composite_eq {t u : Tag} (h : t.Shifted u) : t.composite = u.composite := by
  obtain ⟨part, hspace, hname⟩ := h
  simp only [composite, hspace, hname, String.append_assoc]

/-- Of two tags with one text let the space of the second one go on where that of the first one
ends. -/
theorem Tag.eq_or_shifted {t u : Tag} {more : List Char}
    (hspace : u.space.toList = t.space.toList ++ more)
    (hname : ':' :: t.name.toList = more ++ ':' :: u.name.toList) : t = u ∨ u.Shifted t := by
  cases more with
  | nil =>
    have hspaces : t.space = u.space := String.toList_inj.mp (by simpa using hspace.symm)
    have hnames : t.name = u.name := String.toList_inj.mp (by simpa using hname)
    exact .inl (congrArg₂ Tag.mk hspaces hnames)
  | cons c part =>
    obtain ⟨rfl, hrest⟩ := List.cons.inj hname
    refine .inr ⟨String.ofList part, String.toList_inj.mp ?_, String.toList_inj.mp ?_⟩
    · simpa using hspace
    · simpa using hrest

/-- The texts of two tags are the same in these cases alone. -/
theorem Tag.composite_eq_iff {t u : Tag} : t.composite = u.composite ↔ t.SharesText u := by
  constructor
  · intro h
    have hchars := congrArg String.toList h
    rw [composite_chars, composite_chars, List.append_eq_append_iff] at hchars
    rcases hchars with ⟨more, hspace, hname⟩ | ⟨more, hspace, hname⟩
    · exact (eq_or_shifted hspace hname).imp_right .inr
    · exact (eq_or_shifted hspace hname).imp Eq.symm .inl
  · rintro (rfl | h | h)
    · rfl
    · exact h.composite_eq
    · exact h.composite_eq.symm

/-! ## The two looks -/

namespace Store

/-- The text alone finds the rows of all tags that share it with a wanted one. -/
theorem mem_tagsLike {s : Store} {wanted : List Tag} {r : TagRow} :
    r ∈ s.tagsLike wanted ↔ r ∈ s.tags ∧ ∃ t ∈ wanted, r.tag.SharesText t := by
  simp only [tagsLike, List.mem_filter, List.contains_iff_mem, List.mem_map,
    eq_comm (b := r.tag.composite), Tag.composite_eq_iff]

theorem tagRowsOf_count (s : Store) (wanted : List Tag) (r : TagRow) :
    (s.tagRowsOf wanted).count r = if r.tag ∈ wanted then s.tags.count r else 0 := by
  rw [tagRowsOf_eq]
  split_ifs with hr
  · exact List.count_filter (by simpa using hr)
  · exact List.count_eq_zero.mpr fun hmem => hr (by simpa using (List.mem_filter.mp hmem).2)

end Store

/-- A look-up leaves the store alone. It returns when the texts of the wanted tags, and the colon,
are not too many for a statement, and it fails when they are. It shows a row of a wanted tag as
often as the row is there, which is once in a table whose rows have numbers of their own, and it
never shows another row. The first look would do so, for all tags with a part shifted over the
colon. -/
theorem Repository.findTags_exact (wanted : List Tag) (s : Store) :
    ((Store.composites wanted).size + 1 ≤ parameterLimit →
      ∃ rows, findTags wanted (.live s) = .ok rows (.live s) ∧
        (∀ r, rows.count r = if r.tag ∈ wanted then s.tags.count r else 0) ∧
        ((s.tags.map TagRow.id).Nodup → ∀ r ∈ s.tags, r.tag ∈ wanted → rows.count r = 1)) ∧
    (parameterLimit < (Store.composites wanted).size + 1 →
      findTags wanted (.live s) = .error .tooManyParameters (.live s)) ∧
    ∀ r, r ∈ s.tagsLike wanted ↔ r ∈ s.tags ∧ ∃ t ∈ wanted, r.tag.SharesText t := by
  have hrun := findTags_live wanted s
  have hcount := s.tagRowsOf_count wanted
  refine ⟨fun hfew => ?_, fun hmany => ?_, fun r => Store.mem_tagsLike⟩
  · rw [Store.lookUpRefusal?_eq_none.mpr hfew] at hrun
    refine ⟨_, hrun, hcount, fun hids r hr hwanted => ?_⟩
    rw [hcount, if_pos hwanted]
    exact List.count_eq_one_of_mem hids.of_map hr
  · rw [Store.lookUpRefusal?_of_lt hmany] at hrun
    exact hrun

/-- Two tags share the text `a:b:c`, and only the one that is wanted is shown. -/
theorem Repository.findTags_sharedText :
    let s : Store := { tags := [⟨1, ⟨"a:b", "c"⟩⟩, ⟨2, ⟨"a", "b:c"⟩⟩] }
    s.tagsLike [⟨"a", "b:c"⟩] = s.tags ∧
      ∃ rows, findTags [⟨"a", "b:c"⟩] (.live s) = .ok rows (.live s) ∧
        rows.count ⟨1, ⟨"a:b", "c"⟩⟩ = 0 ∧ rows.count ⟨2, ⟨"a", "b:c"⟩⟩ = 1 := by
  intro s
  obtain ⟨hfew, -, -⟩ := findTags_exact [⟨"a", "b:c"⟩] s
  obtain ⟨rows, hrun, hcount, honce⟩ := hfew (by decide +kernel)
  refine ⟨by decide +kernel, rows, hrun, ?_, ?_⟩
  · rw [hcount, if_neg (by decide)]
  · exact honce (by decide) _ (by simp [s]) (by simp)

/-! ## Too many texts -/

theorem Tag.composite_inj {t u : Tag} (hspace : t.space = u.space)
    (h : t.composite = u.composite) : t = u := by
  have hname : t.name = u.name := by simpa [composite, hspace] using h
  exact congrArg₂ Tag.mk hspace hname

/-- Tags of one space have a text each. -/
theorem Store.composites_longs_size (count : Nat) :
    (composites (Tag.longs count)).size = count := by
  have htexts : ((Tag.longs count).map Tag.composite).Nodup := by
    refine List.Nodup.map_on (fun t ht u hu => ?_) (Tag.longs_nodup count)
    obtain ⟨n, -, rfl⟩ := List.mem_map.mp ht
    obtain ⟨k, -, rfl⟩ := List.mem_map.mp hu
    exact Tag.composite_inj rfl
  have hsize : (composites (Tag.longs count)).size =
      ((Tag.longs count).map Tag.composite).length :=
    Std.TreeSet.size_ofList (htexts.imp fun hne => mt Std.LawfulEqCmp.eq_of_compare hne)
  rw [hsize, List.length_map, Tag.longs_length]

/-- With as many texts as a statement takes values, the colon is one value too many. A row of a
wanted tag is there and is not shown. -/
theorem Repository.findTags_manyTexts :
    let wanted := Tag.longs 32766
    let s : Store := { tags := [⟨1, .long 0⟩] }
    (∃ r ∈ s.tags, r.tag ∈ wanted) ∧
      findTags wanted (.live s) = .error .tooManyParameters (.live s) := by
  intro wanted s
  have hmany : Store.lookUpRefusal? wanted = some .tooManyParameters := by
    apply Store.lookUpRefusal?_of_lt
    rw [Store.composites_longs_size]
    decide
  have hrun := findTags_live wanted s
  rw [hmany] at hrun
  exact ⟨⟨_, List.mem_singleton.mpr rfl, Tag.long_mem (by decide)⟩, hrun⟩

end GalleryCatalog
