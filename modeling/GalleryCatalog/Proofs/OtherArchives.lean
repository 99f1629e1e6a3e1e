import GalleryCatalog.Proofs.TagNumbers

/-!
# Other archives

Archives share the tables. A reconciliation of one archive takes out, rewrites and adds
rows of this archive only, and rows of tags, which belong to none, only come. So every
other archive has the rows that it had, and the same tags.
-/

set_option autoImplicit false

namespace GalleryCatalog

namespace Store

/-- An archive has the same rows in two stores, and the second has the tags of the first. -/
structure Leaves (archive : Int) (s s' : Store) : Prop where
  archives : s'.archives = s.archives
  sources : s'.sources.filter (·.archive = archive) = s.sources.filter (·.archive = archive)
  images : s'.images.filter (·.archive = archive) = s.images.filter (·.archive = archive)
  links : s'.links.filter (·.archive = archive) = s.links.filter (·.archive = archive)
  tags : s.tags <+: s'.tags

section Rows

variable {archive id : Int} (h : archive ≠ id) (s : Store)
include h

theorem filter_foreign {ρ : Type} {owner : ρ → Int} {added : List ρ}
    (hadded : ∀ r ∈ added, owner r = id) : added.filter (fun r => owner r = archive) = [] := by
  rw [List.filter_eq_nil_iff]
  intro r hr hsame
  exact h ((of_decide_eq_true hsame).symm.trans (hadded r hr))

theorem filter_kept {ρ : Type} {owner : ρ → Int} {keep : ρ → Bool} {rows : List ρ}
    (hkeep : ∀ r ∈ rows, owner r ≠ id → keep r = true) :
    (rows.filter keep).filter (fun r => owner r = archive) =
      rows.filter fun r => owner r = archive := by
  rw [List.filter_filter]
  apply List.filter_congr
  intro r hr
  by_cases ha : owner r = archive
  · have hyes := hkeep r hr (by rwa [ha])
    simp [ha, hyes]
  · simp [ha]

theorem afterSources_others (rules : List SourceRule) (merge : Bool) (incoming : List Source) :
    (s.afterSources id rules merge incoming).sources.filter (·.archive = archive) =
      s.sources.filter (·.archive = archive) := by
  obtain ⟨added, hrows, -, howner, -⟩ := s.afterSources_rows id rules merge incoming
  rw [hrows, List.filter_append, filter_foreign h howner, List.append_nil]
  apply filter_kept h
  intro r _ ha
  simp [Reconcile.dropsSource, ha]

theorem afterImages_others (incoming : List Image) :
    (s.afterImages id incoming).images.filter (·.archive = archive) =
      s.images.filter (·.archive = archive) := by
  obtain ⟨added, hrows, -, howner, -⟩ := s.afterImages_rows id incoming
  have howners : (fun r : ImageRow => decide (r.archive = archive)) ∘
      Reconcile.overwritten id incoming = fun r => decide (r.archive = archive) := by
    funext r
    simp [(Reconcile.overwritten_key id incoming r).2.1]
  have hsame : ∀ r ∈ (s.images.filter fun r => !Reconcile.dropsPage id incoming r).filter
      (·.archive = archive), Reconcile.overwritten id incoming r = r := by
    intro r hr
    have ha : r.archive = archive := by simpa using (List.mem_filter.mp hr).2
    have hne : ¬ r.archive = id := by rwa [ha]
    simp [Reconcile.overwritten, hne]
  rw [hrows, List.filter_append, filter_foreign h howner, List.append_nil, List.filter_map,
    howners, List.map_congr_left hsame, List.map_id']
  apply filter_kept h
  intro r _ ha
  simp [Reconcile.dropsPage, ha]

theorem afterTags_others (answers : Reconcile.TagAnswers) (wanted : List Tag) :
    (s.afterTags answers id wanted).links.filter (·.archive = archive) =
      s.links.filter (·.archive = archive) := by
  have hlinked : ((Reconcile.freshIds answers id wanted s).map (LinkRow.mk id)).filter
      (·.archive = archive) = [] := filter_foreign h (by simp)
  unfold afterTags
  rw [withLinks_links, withoutLinks_rows, Reconcile.upsertedTags_links, List.filter_append,
    hlinked, List.append_nil]
  apply filter_kept h
  intro l _ ha
  simp [ha]

end Rows

end Store

namespace Reconcile

variable {archive id : Int} (answers : TagAnswers) (o : Options) (m : Metadata) (s : Store)

theorem reconciled_prefix : s.tags <+: (reconciled answers o id m s).tags := by
  rw [reconciled_tags]
  exact Store.withTags_prefix _ s

theorem reconciled_leaves (h : archive ≠ id) :
    s.Leaves archive (reconciled answers o id m s) := by
  obtain ⟨-, himages, htags, hlinks⟩ := sourced_rest o id m s
  obtain ⟨-, -, htimages⟩ := tagged_rest answers o id m s
  obtain ⟨harchives, hsources', htags', hlinks'⟩ := reconciled_rest answers o id m s
  refine ⟨harchives, ?_, ?_, ?_, reconciled_prefix answers o m s⟩
  · rw [hsources', sourced]
    split
    · rfl
    · exact Store.afterSources_others h s _ _ _
  · unfold reconciled
    split
    · rw [htimages]
    · rw [Store.afterImages_others h, htimages]
  · rw [hlinks', tagged]
    split
    · rw [hlinks]
    · rw [Store.afterTags_others h, hlinks]

end Reconcile

end GalleryCatalog
